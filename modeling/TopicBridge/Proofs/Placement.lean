import TopicBridge.Proofs.Octets
import TopicBridge.Proofs.Queue
import TopicBridge.Proofs.Stretches

/-! Octets on their way into and out of the store of a queue, in at most two stretches: up to the
end of the store and from its beginning. Each of these moves is checked here, and none of them ever
leaves the store or the buffer at the other end. -/
namespace TopicBridge.Ring

/-- The queue over a store, if head and length are within it. -/
def over? (store : Bytes) (head length : Nat) : Option Ring :=
  if h : head < store.toArray.size ∧ length ≤ store.toArray.size then
    some ⟨store.toArray, head, length, h.1, h.2⟩
  else none

/-- The store after `data` was written behind what is buffered. -/
def written? (ring : Ring) (data : Bytes) : Option Bytes := do
  let tail := (ring.head + ring.length) % ring.capacity
  let first := min data.length (ring.capacity - tail)
  let front ← Bytes.stretch? data 0 first
  let store ← Bytes.overwrite? ring.store.toList tail (tail + first) front
  let back ← Bytes.stretch? data first data.length
  Bytes.overwrite? store 0 (data.length - first) back

def slices? (ring : Ring) : Option (Bytes × Bytes) := do
  let first := min ring.length (ring.capacity - ring.head)
  let front ← Bytes.stretch? ring.store.toList ring.head (ring.head + first)
  let back ← Bytes.stretch? ring.store.toList 0 (ring.length - first)
  some (front, back)

/-- How many octets are copied to a destination, and what it then holds. -/
def copied? (ring : Ring) (destination : Bytes) : Option (Nat × Bytes) := do
  let count := min destination.length ring.length
  let (a, b) ← ring.slices?
  let first := min count a.length
  let front ← Bytes.stretch? a 0 first
  let destination ← Bytes.overwrite? destination 0 first front
  let back ← Bytes.stretch? b 0 (count - first)
  let destination ← Bytes.overwrite? destination first count back
  some (count, destination)

def skipped? (ring : Ring) (n : Nat) : Option (Nat × Ring) := do
  let count := min n ring.length
  let length := ring.length - count
  let head := if length = 0 then 0 else (ring.head + count) % ring.capacity
  let next ← over? ring.store.toList head length
  some (count, next)

/-- The octet at an offset, read where it lies in the store. -/
def octet? (ring : Ring) (index : Nat) : Option (Option UInt8) :=
  if ring.length ≤ index then some none
  else ring.store[(ring.head + index) % ring.capacity]?.map some

/-- Whether a pattern lies at an offset, octet by octet. -/
def lies? (ring : Ring) (start : Nat) : Bytes → Option Bool
  | [] => some true
  | b :: rest => do
      let found ← ring.octet? start
      if found = some b then ring.lies? (start + 1) rest else some false

/-- The first of so many offsets from `start` on at which a pattern lies. -/
def searched? (ring : Ring) (pattern : Bytes) (start : Nat) : Nat → Option (Option Nat)
  | 0 => some none
  | n + 1 => do
      if ← ring.lies? start pattern then some (some start)
      else ring.searched? pattern (start + 1) n

def found? (ring : Ring) (pattern : Bytes) : Option (Option Nat) :=
  if pattern = [] ∨ ring.length < pattern.length then some none
  else ring.searched? pattern 0 (ring.length - pattern.length + 1)

theorem over?_self (ring : Ring) : over? ring.store.toList ring.head ring.length = some ring := by
  unfold over?
  rw [dif_pos (by simpa using ⟨ring.head_lt, ring.length_le⟩)]

/-- Writing depends on the position within one turn only. -/
theorem writeFrom_congr {store : Array UInt8} {p q : Nat} (h : p % store.size = q % store.size)
    (data : Bytes) : writeFrom store p data = writeFrom store q data := by
  induction data generalizing store p q with
  | nil => rfl
  | cons b rest ih =>
      rw [writeFrom, writeFrom, h]
      apply ih
      rw [Array.size_setIfInBounds]
      rw [Nat.add_mod, h, ← Nat.add_mod]

theorem writeFrom_append (store : Array UInt8) (position : Nat) (front back : Bytes) :
    writeFrom store position (front ++ back) =
      writeFrom (writeFrom store position front) (position + front.length) back := by
  induction front generalizing store position with
  | nil => rfl
  | cons b rest ih =>
      rw [List.cons_append, writeFrom, ih, writeFrom, List.length_cons, Nat.add_comm rest.length,
        Nat.add_assoc]

/-- Data that ends before the store does replaces one stretch. -/
theorem toList_writeFrom {store : Array UInt8} {start : Nat} {data : Bytes}
    (h : start + data.length ≤ store.size) :
    (writeFrom store start data).toList =
      store.toList.take start ++ data ++ store.toList.drop (start + data.length) := by
  induction data generalizing store start with
  | nil => simp [writeFrom]
  | cons b rest ih =>
      rw [List.length_cons] at h
      have hstart : start < store.toList.length := by
        rw [Array.length_toList]
        omega
      have hset : (store.setIfInBounds (start % store.size) b).toList =
          store.toList.take start ++ [b] ++ store.toList.drop (start + 1) := by
        rw [Nat.mod_eq_of_lt (by omega), Array.toList_setIfInBounds,
          List.set_eq_take_append_cons_drop, if_pos hstart, List.append_assoc]
        rfl
      have hfront : (store.toList.take start ++ [b]).length = start + 1 := by
        rw [List.length_append, List.length_take, List.length_singleton]
        omega
      rw [writeFrom, ih (by rw [Array.size_setIfInBounds]; omega), hset, List.take_left' hfront,
        ← List.drop_drop, List.drop_left' hfront, List.drop_drop, List.append_assoc _ [b],
        List.singleton_append, List.length_cons, Nat.add_right_comm start 1]
      rfl

theorem overwrite?_within {store : Array UInt8} {start : Nat} {data : Bytes}
    (h : start + data.length ≤ store.size) :
    Bytes.overwrite? store.toList start (start + data.length) data =
      some (writeFrom store start data).toList := by
  rw [toList_writeFrom h]
  exact Bytes.overwrite?_of_le (Nat.le_add_right _ _) h (Nat.add_sub_cancel_left _ _).symm

/-- Data that begins where the store ends goes to its beginning. -/
theorem overwrite?_turned {store : Array UInt8} {position : Nat} {data : Bytes}
    (hturn : data = [] ∨ position = store.size) (h : data.length ≤ store.size) :
    Bytes.overwrite? store.toList 0 data.length data =
      some (writeFrom store position data).toList := by
  have hbegin : writeFrom store position data = writeFrom store 0 data := by
    rcases hturn with rfl | rfl
    · rfl
    · apply writeFrom_congr
      rw [Nat.mod_self, Nat.zero_mod]
  rw [hbegin, ← overwrite?_within (by omega), Nat.zero_add]

/-- Data over the end of a store goes into one stretch up to there and one from its beginning. -/
theorem overwrite?_around {store : Array UInt8} {tail first : Nat} {data : Bytes}
    (hfirst : min data.length (store.size - tail) = first) (htail : tail < store.size)
    (hdata : data.length ≤ store.size) :
    (do
      let part ← Bytes.overwrite? store.toList tail (tail + first) (data.take first)
      Bytes.overwrite? part 0 (data.length - first) (data.drop first)) =
        some (writeFrom store tail data).toList := by
  have hfront : (data.take first).length = first := by
    rw [List.length_take]
    omega
  have hback : (data.drop first).length = data.length - first := List.length_drop
  have hsplit := writeFrom_append store tail (data.take first) (data.drop first)
  rw [List.take_append_drop] at hsplit
  have hwrite := @overwrite?_within store tail (data.take first) (by omega)
  have hturned := @overwrite?_turned (writeFrom store tail (data.take first))
    (tail + (data.take first).length) (data.drop first)
    (by rw [size_writeFrom, ← List.length_eq_zero_iff]; omega) (by rw [size_writeFrom]; omega)
  rw [← hsplit, hback] at hturned
  rw [hfront] at hwrite
  rw [hwrite]
  exact hturned

theorem written?_eq {ring : Ring} {data : Bytes} (h : data.length ≤ ring.free) :
    ring.written? data =
      some (writeFrom ring.store (ring.head + ring.length) data).toList := by
  have hroom := ring.length_add_free
  have hsame : writeFrom ring.store (ring.head + ring.length) data =
      writeFrom ring.store ((ring.head + ring.length) % ring.capacity) data :=
    writeFrom_congr (Nat.mod_mod _ _).symm data
  have htail : (ring.head + ring.length) % ring.capacity < ring.capacity :=
    Nat.mod_lt _ (Nat.zero_lt_of_lt ring.head_lt)
  unfold written?
  generalize (ring.head + ring.length) % ring.capacity = tail at hsame htail ⊢
  generalize hfirst : min data.length (ring.capacity - tail) = first
  have hread : Bytes.stretch? data 0 first = some (data.take first) :=
    Bytes.stretch?_zero (by omega)
  have hreadBack : Bytes.stretch? data first data.length = some (data.drop first) := by
    rw [Bytes.stretch?_of_le (by omega) (Nat.le_refl _), List.take_length]
  have hwrites := overwrite?_around hfirst htail (show data.length ≤ ring.store.size by
    rw [← capacity]
    omega)
  simp only [hfirst, hread, hreadBack, Option.bind_eq_bind, Option.bind_some]
  rw [hsame]
  exact hwrites

/-- The octets up to the end of the store, and then those from its beginning, are the list. -/
theorem append_slices (ring : Ring) : ring.slices.1 ++ ring.slices.2 = ring.toList := by
  have hhead := ring.head_lt
  have hlength := ring.length_le
  have hfirst : ring.slices.1.length = min ring.length (ring.capacity - ring.head) := by
    simp only [slices, List.length_take, List.length_drop, Array.length_toList, capacity]
    omega
  have hsecond : ring.slices.2.length = ring.length - ring.slices.1.length := by
    rw [hfirst]
    simp only [slices, List.length_take, Array.length_toList, capacity]
    omega
  simp only [capacity] at hfirst
  apply List.ext_getElem?
  intro index
  rcases Nat.lt_or_ge index ring.length with hindex | hindex
  · rw [getElem?_toList _ _ hindex, ← getElem?_store, ← Array.getElem?_toList]
    rcases Nat.lt_or_ge index ring.slices.1.length with hfront | hback
    · have hplace : (ring.head + index) % ring.store.size = ring.head + index :=
        Nat.mod_eq_of_lt (by omega)
      rw [List.getElem?_append_left hfront, hplace, slices, List.getElem?_take_of_lt
        (by simp only [capacity]; omega), List.getElem?_drop]
    · have hplace : (ring.head + index) % ring.store.size = index - ring.slices.1.length := by
        rw [show ring.head + index = index - ring.slices.1.length + ring.store.size by omega,
          Nat.add_mod_right, Nat.mod_eq_of_lt (by omega)]
      rw [List.getElem?_append_right hback, hplace, hfirst]
      exact List.getElem?_take_of_lt (by simp only [capacity]; omega)
  · rw [List.getElem?_eq_none (by rw [List.length_append]; omega),
      List.getElem?_eq_none (by rw [length_toList]; exact hindex)]

theorem slices?_eq (ring : Ring) : ring.slices? = some ring.slices := by
  have hhead := ring.head_lt
  have hlength := ring.length_le
  have hsize : ring.store.toList.length = ring.capacity := Array.length_toList
  have hcapacity : ring.capacity = ring.store.size := rfl
  generalize hfirst : min ring.length (ring.capacity - ring.head) = first
  have hfront : Bytes.stretch? ring.store.toList ring.head (ring.head + first) =
      some ((ring.store.toList.drop ring.head).take first) := by
    rw [Bytes.stretch?_of_le (Nat.le_add_right _ _) (by omega), ← List.take_drop]
  have hback : Bytes.stretch? ring.store.toList 0 (ring.length - first) =
      some (ring.store.toList.take (ring.length - first)) := Bytes.stretch?_zero (by omega)
  simp only [slices?, hfirst, hfront, hback, Option.bind_eq_bind, Option.bind_some, slices]

theorem length_peek (ring : Ring) (n : Nat) : (ring.peek n).length = min n ring.length := by
  rw [peek, List.length_take, length_toList]

/-- The first octets of the list are first octets of both slices. -/
theorem peek_eq_append {ring : Ring} {a b : Bytes} (happend : a ++ b = ring.toList) (n : Nat) :
    ring.peek n =
      a.take (min (min n ring.length) a.length) ++
        b.take (min n ring.length - min (min n ring.length) a.length) := by
  have hsum := congrArg List.length happend
  rw [List.length_append, length_toList] at hsum
  have hfront : a.take n = a.take (min (min n ring.length) a.length) := by
    rw [List.take_eq_take_iff]
    omega
  have hback : b.take (n - a.length) =
      b.take (min n ring.length - min (min n ring.length) a.length) := by
    rw [List.take_eq_take_iff]
    omega
  rw [peek, ← happend, List.take_append, hfront, hback]

/-- A copy takes what it can from the first slice and the rest from the second, and leaves the
destination behind that as it was. -/
theorem copied?_eq (ring : Ring) (destination : Bytes) :
    ring.copied? destination =
      some ((ring.peek destination.length).length,
        ring.peek destination.length ++ destination.drop (ring.peek destination.length).length) := by
  have happend := ring.append_slices
  have hslices := ring.slices?_eq
  generalize ring.slices = slices at happend hslices
  obtain ⟨a, b⟩ := slices
  dsimp only at happend
  have hsum := congrArg List.length happend
  rw [List.length_append, length_toList] at hsum
  have hpeek := peek_eq_append happend destination.length
  rw [length_peek, hpeek]
  generalize hcount : min destination.length ring.length = count
  generalize hfirst : min count a.length = first
  have hread : Bytes.stretch? a 0 first = some (a.take first) := Bytes.stretch?_zero (by omega)
  have hreadBack : Bytes.stretch? b 0 (count - first) = some (b.take (count - first)) :=
    Bytes.stretch?_zero (by omega)
  have hfront : (a.take first).length = first := List.length_take_of_le (by omega)
  have hback : (b.take (count - first)).length = count - first :=
    List.length_take_of_le (by omega)
  have hwrites := @Bytes.overwrite?_twice destination (a.take first) (b.take (count - first)) count
    (by omega) (by omega)
  rw [hfront] at hwrites
  simp only [copied?, hslices, hcount, hfirst, hread, hreadBack, Option.bind_eq_bind,
    Option.bind_some] at hwrites ⊢
  rw [← Option.bind_assoc, hwrites]
  rfl

theorem skipped?_eq (ring : Ring) (n : Nat) :
    ring.skipped? n = some (ring.available n, ring.skip n) := by
  have hhead : (if ring.length - min n ring.length = 0 then 0
      else (ring.head + min n ring.length) % ring.capacity) = (ring.skip n).head := by
    simp only [Nat.sub_eq_zero_iff_le]
    rfl
  have hover : over? (ring.skip n).store.toList (ring.skip n).head (ring.skip n).length =
      some (ring.skip n) := over?_self _
  rw [← hhead] at hover
  exact congrArg (Option.bind · _) hover

/-- An offset within the queue lies at a place of the store. -/
theorem octet?_eq (ring : Ring) (index : Nat) : ring.octet? index = some (ring.get? index) := by
  unfold octet? get?
  split
  · next hbeyond => rw [if_neg (Nat.not_lt_of_le hbeyond)]
  · next hwithin =>
      rw [if_pos (Nat.lt_of_not_le hwithin), capacity, getElem?_store]
      rfl

theorem get?_eq (ring : Ring) (index : Nat) : ring.get? index = ring.toList[index]? := by
  unfold get?
  split
  · next hwithin => rw [getElem?_toList _ _ hwithin]
  · next hbeyond => rw [List.getElem?_eq_none (by rw [length_toList]; omega)]

theorem lies?_eq (ring : Ring) (start : Nat) (pattern : Bytes) :
    ring.lies? start pattern = some (pattern.isPrefixOf (ring.toList.drop start)) := by
  induction pattern generalizing start with
  | nil => rfl
  | cons b rest ih =>
      simp only [lies?, octet?_eq, get?_eq, Option.bind_eq_bind, Option.bind_some, ih,
        ← List.head?_drop, ← List.tail_drop]
      cases ring.toList.drop start with
      | nil => rfl
      | cons c following =>
          by_cases hsame : c = b
          · simp [hsame, List.isPrefixOf]
          · simp [hsame, Ne.symm hsame, List.isPrefixOf]

/-- The search may stop where the pattern is longer than what is left. -/
theorem searched?_eq {ring : Ring} {pattern : Bytes} (hpattern : pattern ≠ []) {start n : Nat}
    (henough : (ring.toList.drop start).length < n + pattern.length) :
    ring.searched? pattern start n =
      some (Bytes.offsetFrom pattern start (ring.toList.drop start)) := by
  induction n generalizing start with
  | zero =>
      rw [Nat.zero_add] at henough
      rw [Bytes.offsetFrom_of_length_lt henough]
      rfl
  | succ n ih =>
      have hnext : (ring.toList.drop (start + 1)).length < n + pattern.length := by
        rw [List.length_drop] at henough ⊢
        have := List.length_pos_iff.mpr hpattern
        omega
      have hrest := ih hnext
      rw [← List.tail_drop] at hrest
      simp only [searched?, lies?_eq, Option.bind_eq_bind, Option.bind_some, hrest]
      cases ring.toList.drop start with
      | nil =>
          cases pattern with
          | nil => exact absurd rfl hpattern
          | cons b rest => rfl
      | cons c following =>
          rw [Bytes.offsetFrom]
          split <;> rfl

theorem found?_eq (ring : Ring) (pattern : Bytes) :
    ring.found? pattern = some (ring.find pattern) := by
  by_cases hempty : pattern = []
  · rw [found?, if_pos (.inl hempty), hempty]
    rfl
  · have hfind : ring.find pattern = Bytes.offsetFrom pattern 0 ring.toList :=
      if_neg (by simpa using hempty)
    rw [hfind]
    rcases Nat.lt_or_ge ring.length pattern.length with hlong | hshort
    · rw [found?, if_pos (.inr hlong), Bytes.offsetFrom_of_length_lt (by rwa [length_toList])]
    · rw [found?, if_neg (by simpa [hempty] using hshort), searched?_eq hempty]
      · rfl
      · rw [List.drop_zero, length_toList]
        omega

end TopicBridge.Ring
