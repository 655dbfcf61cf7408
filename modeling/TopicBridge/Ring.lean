import TopicBridge.Bytes
import TopicBridge.Link.Error

/-! A first-in first-out octet queue of fixed capacity in a circular store. What is buffered
is the list read from the head onwards, wrapping once. A push is taken whole or refused whole,
and an empty queue starts again at the beginning of the store. -/
namespace TopicBridge

/-- `length` octets from position `head` on, positions taken modulo the size of the store. -/
structure Ring where
  store : Array UInt8
  head : Nat
  length : Nat
  head_lt : head < store.size
  length_le : length ≤ store.size

namespace Ring

/-- The text with which a queue of no capacity is refused. -/
def zeroCapacity : String := "ring buffer capacity must be non-zero"

/-- An empty queue. There is none of capacity zero. -/
def ofCapacity? (capacity : Nat) : Option Ring :=
  if h : 0 < capacity then
    some ⟨Array.replicate capacity 0, 0, 0, by simpa using h, Nat.zero_le _⟩
  else none

def capacity (ring : Ring) : Nat := ring.store.size
def free (ring : Ring) : Nat := ring.capacity - ring.length
def isEmpty (ring : Ring) : Bool := ring.length == 0
def isFull (ring : Ring) : Bool := ring.length == ring.capacity

/-- The octet `index` places behind the head, buffered or not. -/
def slot (ring : Ring) (index : Nat) : UInt8 :=
  have h : (ring.head + index) % ring.store.size < ring.store.size :=
    Nat.mod_lt _ (Nat.zero_lt_of_lt ring.head_lt)
  ring.store[(ring.head + index) % ring.store.size]

/-- The buffered octets, oldest first. -/
def toList (ring : Ring) : Bytes :=
  List.ofFn fun i : Fin ring.length => ring.slot i

def get? (ring : Ring) (index : Nat) : Option UInt8 :=
  if index < ring.length then some (ring.slot index) else none

/-- Writes octets to consecutive positions, wrapping at the end of the store. -/
def writeFrom (store : Array UInt8) (position : Nat) : Bytes → Array UInt8
  | [] => store
  | b :: rest => writeFrom (store.setIfInBounds (position % store.size) b) (position + 1) rest

@[simp] theorem size_writeFrom (store : Array UInt8) (position : Nat) (data : Bytes) :
    (writeFrom store position data).size = store.size := by
  induction data generalizing store position with
  | nil => rfl
  | cons b rest ih => simp only [writeFrom, ih, Array.size_setIfInBounds]

/-- Appends all of `data`, or refuses all of it. -/
def push (ring : Ring) (data : Bytes) : Except LinkError Ring :=
  if h : data.length ≤ ring.free then
    .ok
      { store := writeFrom ring.store (ring.head + ring.length) data
        head := ring.head
        length := ring.length + data.length
        head_lt := by simpa using ring.head_lt
        length_le := by
          have := ring.length_le
          simp only [free, capacity, size_writeFrom] at h ⊢
          omega }
  else .error (.overflow data.length ring.free)

/-- How many octets a request for `n` yields. -/
def available (ring : Ring) (n : Nat) : Nat := min n ring.length

/-- The first `n` octets, fewer if fewer are buffered. -/
def peek (ring : Ring) (n : Nat) : Bytes := ring.toList.take n

/-- Drops the first `n` octets, all if fewer are buffered. -/
def skip (ring : Ring) (n : Nat) : Ring :=
  let dropped := ring.available n
  { ring with
    head := if ring.length ≤ dropped then 0 else (ring.head + dropped) % ring.store.size
    length := ring.length - dropped
    head_lt := by
      have h := Nat.zero_lt_of_lt ring.head_lt
      split
      · exact h
      · exact Nat.mod_lt _ h
    length_le := Nat.le_trans (Nat.sub_le _ _) ring.length_le }

def pop (ring : Ring) (n : Nat) : Bytes × Ring := (ring.peek n, ring.skip n)

def clear (ring : Ring) : Ring :=
  { ring with
    head := 0
    length := 0
    head_lt := Nat.zero_lt_of_lt ring.head_lt
    length_le := Nat.zero_le _ }

/-- The buffered octets up to the end of the store, and those from its beginning. -/
def slices (ring : Ring) : Bytes × Bytes :=
  let first := min ring.length (ring.capacity - ring.head)
  (ring.store.toList.drop ring.head |>.take first, ring.store.toList.take (ring.length - first))

/-- The offset from the head of the first occurrence of `pattern`. -/
def find (ring : Ring) (pattern : Bytes) : Option Nat :=
  Bytes.offsetOf? pattern ring.toList

def describe (ring : Ring) : String :=
  s!"RingBuffer \x7b capacity: {ring.capacity}, len: {ring.length}, head: {ring.head} \x7d"

end Ring
end TopicBridge
