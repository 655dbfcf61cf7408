import TopicBridge.Proofs.Placement

/-! The calls of a queue are answered as a plain list of bounded length would answer them, whatever
calls came before and wherever in the store the octets lie. -/
namespace TopicBridge
namespace Ring

/-- What is asked of a queue. Octets are copied to the front of a destination. -/
inductive Call where
  | push (data : Bytes)
  | peek (destination : Bytes)
  | pop (destination : Bytes)
  | skip (n : Nat)
  | clear
  | get (index : Nat)
  | find (pattern : Bytes)
  | slices

inductive Answer where
  | pushed (count : Nat)
  | refused (cause : LinkError)
  | copied (count : Nat) (destination : Bytes)
  | skipped (count : Nat)
  | cleared
  | octet (found : Option UInt8)
  | offset (found : Option Nat)
  | slices (first second : Bytes)
  deriving DecidableEq

def answer (ring : Ring) : Call → Answer × Ring
  | .push data =>
      match ring.push data with
      | .ok next => (.pushed data.length, next)
      | .error cause => (.refused cause, ring)
  | .peek destination =>
      let data := ring.peek destination.length
      (.copied data.length (data ++ destination.drop data.length), ring)
  | .pop destination =>
      let (data, next) := ring.pop destination.length
      (.copied data.length (data ++ destination.drop data.length), next)
  | .skip n => (.skipped (ring.available n), ring.skip n)
  | .clear => (.cleared, ring.clear)
  | .get index => (.octet (ring.get? index), ring)
  | .find pattern => (.offset (ring.find pattern), ring)
  | .slices => (.slices ring.slices.1 ring.slices.2, ring)

def answers (ring : Ring) : List Call → List Answer × Ring
  | [] => ([], ring)
  | call :: calls =>
      let first := ring.answer call
      let others := first.2.answers calls
      (first.1 :: others.1, others.2)

/-- The same with every access to the store and to a buffer checked. -/
def perform? (ring : Ring) : Call → Option (Answer × Ring)
  | .push data =>
      if ring.free < data.length then
        some (.refused (.overflow data.length ring.free), ring)
      else do
        let store ← ring.written? data
        let next ← over? store ring.head (ring.length + data.length)
        some (.pushed data.length, next)
  | .peek destination => do
      let (count, destination) ← ring.copied? destination
      some (.copied count destination, ring)
  | .pop destination => do
      let (count, destination) ← ring.copied? destination
      let (_, next) ← ring.skipped? count
      some (.copied count destination, next)
  | .skip n => do
      let (count, next) ← ring.skipped? n
      some (.skipped count, next)
  | .clear => do
      let next ← over? ring.store.toList 0 0
      some (.cleared, next)
  | .get index => do
      let found ← ring.octet? index
      some (.octet found, ring)
  | .find pattern => do
      let found ← ring.found? pattern
      some (.offset found, ring)
  | .slices => do
      let (first, second) ← ring.slices?
      some (.slices first second, ring)

def performs? (ring : Ring) : List Call → Option (List Answer × Ring)
  | [] => some ([], ring)
  | call :: calls => do
      let (first, next) ← ring.perform? call
      let (others, last) ← next.performs? calls
      some (first :: others, last)

theorem parts_of_push {ring next : Ring} {data : Bytes} (h : ring.push data = .ok next) :
    next.store = writeFrom ring.store (ring.head + ring.length) data ∧ next.head = ring.head ∧
      next.length = ring.length + data.length := by
  unfold push at h
  split at h
  · cases h
    exact ⟨rfl, rfl, rfl⟩
  · cases h

theorem push_of_lt {ring : Ring} {data : Bytes} (h : ring.free < data.length) :
    ring.push data = .error (.overflow data.length ring.free) :=
  dif_neg (Nat.not_le_of_lt h)

theorem skip_length_peek (ring : Ring) (n : Nat) :
    ring.skip (ring.peek n).length = ring.skip n := by
  have hsame : ring.available (ring.peek n).length = ring.available n := by
    rw [available, length_peek, available, Nat.min_assoc, Nat.min_self]
  simp only [skip, hsame]

theorem perform?_eq (ring : Ring) (call : Call) : ring.perform? call = some (ring.answer call) := by
  cases call with
  | push data =>
      rcases Nat.lt_or_ge ring.free data.length with hlong | hfits
      · rw [perform?, if_pos hlong, answer, push_of_lt hlong]
      · obtain ⟨next, hpush, -⟩ := ring.push_fits data hfits
        obtain ⟨hstore, hhead, hlength⟩ := parts_of_push hpush
        have hover := next.over?_self
        rw [hstore, hhead, hlength] at hover
        simp only [perform?, if_neg (Nat.not_lt_of_le hfits), written?_eq hfits, hover,
          Option.bind_eq_bind, Option.bind_some, answer, hpush]
  | peek destination =>
      rw [perform?, copied?_eq]
      rfl
  | pop destination =>
      simp only [perform?, copied?_eq, skipped?_eq, skip_length_peek, Option.bind_eq_bind,
        Option.bind_some, answer, pop]
  | skip n =>
      rw [perform?, skipped?_eq]
      rfl
  | clear =>
      have hover : over? ring.store.toList 0 0 = some ring.clear := over?_self ring.clear
      rw [perform?, hover]
      rfl
  | get index =>
      rw [perform?, octet?_eq]
      rfl
  | find pattern =>
      rw [perform?, found?_eq]
      rfl
  | slices =>
      rw [perform?, slices?_eq]
      rfl

theorem performs?_eq (ring : Ring) (calls : List Call) :
    ring.performs? calls = some (ring.answers calls) := by
  induction calls generalizing ring with
  | nil => rfl
  | cons call calls ih =>
      simp only [performs?, perform?_eq, ih, Option.bind_eq_bind, Option.bind_some]
      rfl

/-- What a list of at most `capacity` octets answers, and the list after that. -/
inductive Lists (capacity : Nat) (s : Bytes) : Call → Answer → Bytes → Prop
  | pushed {data : Bytes} : s.length + data.length ≤ capacity →
      Lists capacity s (.push data) (.pushed data.length) (s ++ data)
  | refused {data : Bytes} : capacity < s.length + data.length →
      Lists capacity s (.push data)
        (.refused (.overflow data.length (capacity - s.length))) s
  | peeked {destination : Bytes} :
      Lists capacity s (.peek destination)
        (.copied (min destination.length s.length)
          (s.take destination.length ++ destination.drop (min destination.length s.length))) s
  | popped {destination : Bytes} :
      Lists capacity s (.pop destination)
        (.copied (min destination.length s.length)
          (s.take destination.length ++ destination.drop (min destination.length s.length)))
        (s.drop destination.length)
  | skipped {n : Nat} : Lists capacity s (.skip n) (.skipped (min n s.length)) (s.drop n)
  | cleared : Lists capacity s .clear .cleared []
  | octet {index : Nat} : Lists capacity s (.get index) (.octet s[index]?) s
  | offset {pattern : Bytes} {found : Option Nat} :
      (∀ n, found = some n ↔
        pattern ≠ [] ∧ pattern <+: s.drop n ∧ ∀ m < n, ¬ pattern <+: s.drop m) →
      Lists capacity s (.find pattern) (.offset found) s
  | slices {first second : Bytes} : first ++ second = s →
      Lists capacity s .slices (.slices first second) s

inductive ListsAll (capacity : Nat) : Bytes → List Call → List Answer → Bytes → Prop
  | nil (s : Bytes) : ListsAll capacity s [] [] s
  | cons {s next last : Bytes} {call : Call} {calls : List Call} {answer : Answer}
      {answers : List Answer} : Lists capacity s call answer next →
      ListsAll capacity next calls answers last →
      ListsAll capacity s (call :: calls) (answer :: answers) last

/-- How a queue stands for a list. -/
structure Stands (capacity : Nat) (ring : Ring) (s : Bytes) : Prop where
  capacity : ring.capacity = capacity
  list : ring.toList = s
  head : ring.length = 0 → ring.head = 0

section
variable {capacity : Nat} {ring : Ring} {s : Bytes}

theorem Stands.length (h : Stands capacity ring s) : ring.length = s.length := by
  rw [← h.list, length_toList]

theorem Stands.free (h : Stands capacity ring s) : ring.free = capacity - s.length := by
  rw [Ring.free, h.capacity, h.length]

theorem Stands.length_le (h : Stands capacity ring s) : s.length ≤ capacity := by
  rw [← h.length, ← h.capacity]
  exact ring.length_le

theorem stands_ofCapacity (h : ofCapacity? capacity = some ring) : Stands capacity ring [] := by
  obtain ⟨hlist, hcapacity⟩ := toList_ofCapacity h
  refine ⟨hcapacity, hlist, ?_⟩
  intro _
  unfold ofCapacity? at h
  split at h
  · cases h
    rfl
  · cases h

theorem Stands.skip (h : Stands capacity ring s) (n : Nat) :
    Stands capacity (ring.skip n) (s.drop n) := by
  refine ⟨h.capacity, by rw [toList_skip, h.list], ?_⟩
  intro hempty
  exact if_pos (Nat.sub_eq_zero_iff_le.mp hempty)

theorem Stands.find (h : Stands capacity ring s) (pattern : Bytes) (n : Nat) :
    ring.find pattern = some n ↔
      pattern ≠ [] ∧ pattern <+: s.drop n ∧ ∀ m < n, ¬ pattern <+: s.drop m := by
  rw [Ring.find, h.list]
  by_cases hempty : pattern = []
  · rw [hempty]
    exact ⟨nofun, fun hfound => absurd rfl hfound.1⟩
  · rw [Bytes.offsetOf?_eq_some_iff hempty]
    exact ⟨fun hfound => ⟨hempty, hfound⟩, fun hfound => hfound.2⟩

theorem Stands.push (h : Stands capacity ring s) (data : Bytes) :
    ∃ t, Lists capacity s (.push data) (ring.answer (.push data)).1 t ∧
      Stands capacity (ring.answer (.push data)).2 t := by
  have hbound := h.length_le
  rcases Nat.lt_or_ge ring.free data.length with hlong | hfits
  · rw [answer, push_of_lt hlong, h.free]
    rw [h.free] at hlong
    exact ⟨s, .refused (by omega), h⟩
  · obtain ⟨next, hpush, hlist, hcapacity⟩ := ring.push_fits data hfits
    obtain ⟨-, hhead, hlength⟩ := parts_of_push hpush
    rw [answer, hpush]
    rw [h.free] at hfits
    refine ⟨s ++ data, .pushed (by omega), hcapacity.trans h.capacity, by rw [hlist, h.list], ?_⟩
    intro hempty
    have hnothing : next.length = 0 := hempty
    exact hhead.trans (h.head (by omega))

/-- A call is answered as the list answers it, and the queue stands for the list after that. -/
theorem Stands.answer (h : Stands capacity ring s) (call : Call) :
    ∃ t, Lists capacity s call (ring.answer call).1 t ∧
      Stands capacity (ring.answer call).2 t := by
  have hpeek : ∀ n, ring.peek n = s.take n := fun n => by rw [peek, h.list]
  cases call with
  | push data => exact h.push data
  | peek destination =>
      refine ⟨s, ?_, h⟩
      rw [Ring.answer, hpeek, List.length_take]
      exact .peeked
  | pop destination =>
      refine ⟨s.drop destination.length, ?_, h.skip _⟩
      simp only [Ring.answer, pop, hpeek, List.length_take]
      exact .popped
  | skip n =>
      refine ⟨s.drop n, ?_, h.skip n⟩
      rw [Ring.answer, available, h.length]
      exact .skipped
  | clear =>
      have hlist : ring.clear.toList = [] := rfl
      exact ⟨[], .cleared, h.capacity, hlist, fun _ => rfl⟩
  | get index =>
      refine ⟨s, ?_, h⟩
      rw [Ring.answer, get?_eq, h.list]
      exact .octet
  | find pattern => exact ⟨s, .offset (h.find pattern), h⟩
  | slices => exact ⟨s, .slices (by rw [append_slices, h.list]), h⟩

theorem Stands.answers (h : Stands capacity ring s) (calls : List Call) :
    ∃ t, ListsAll capacity s calls (ring.answers calls).1 t ∧
      Stands capacity (ring.answers calls).2 t := by
  induction calls generalizing ring s with
  | nil => exact ⟨s, .nil s, h⟩
  | cons call calls ih =>
      obtain ⟨next, hfirst, hnext⟩ := h.answer call
      obtain ⟨last, hothers, hlast⟩ := ih hnext
      exact ⟨last, .cons hfirst hothers, hlast⟩

end

/-- Any calls of a queue, with any arguments, are answered as a list of at most as many octets as
its capacity answers them. At all times head and length are within the store, an empty queue begins
at its beginning, and no call has an access outside of the store. -/
theorem answers_as_list {capacity : Nat} (hcapacity : 0 < capacity) :
    ∃ ring, ofCapacity? capacity = some ring ∧ ∀ calls,
      let reached := (ring.answers calls).2
      ListsAll capacity [] calls (ring.answers calls).1 reached.toList ∧
      reached.toList.length ≤ capacity ∧ reached.length + reached.free = capacity ∧
      reached.head < capacity ∧ reached.length ≤ capacity ∧
      (reached.length = 0 → reached.head = 0) ∧
      ring.performs? calls = some (ring.answers calls) := by
  obtain ⟨ring, hring⟩ := exists_ofCapacity hcapacity
  refine ⟨ring, hring, ?_⟩
  intro calls
  obtain ⟨t, hanswers, h⟩ := (stands_ofCapacity hring).answers calls
  obtain rfl := h.list
  refine ⟨hanswers, h.length_le, ?_, ?_, ?_, h.head, performs?_eq ring calls⟩
  · rw [length_add_free, h.capacity]
  · rw [← h.capacity]
    exact Ring.head_lt _
  · rw [h.length]
    exact h.length_le

/-- A second push that wraps, a third one that does not fit, and a pattern across the wrap. -/
def wrapping : List Call :=
  [.push [1, 2, 3, 4], .skip 2, .push [9, 8, 7, 6], .find [8, 7, 6], .push [5], .slices,
    .pop [0, 0, 0], .get 2, .get 3, .peek [0, 0, 0, 0, 0]]

def wrapped : List Answer :=
  [.pushed 4, .skipped 2, .pushed 4, .offset (some 3), .refused (.overflow 1 0),
    .slices [3, 4, 9, 8] [7, 6], .copied 3 [3, 4, 9], .octet (some 6), .octet none,
    .copied 3 [8, 7, 6, 0, 0]]

theorem answers_as_list_wrapped :
    ∃ ring, ofCapacity? 6 = some ring ∧ ListsAll 6 [] wrapping wrapped [8, 7, 6] ∧
      (ring.performs? wrapping).isSome := by
  obtain ⟨ring, hring, hcalls⟩ := answers_as_list (show 0 < 6 by decide)
  obtain ⟨hlist, -, -, -, -, -, hperforms⟩ := hcalls wrapping
  have hseen : (ofCapacity? 6).map (fun ring =>
      ((ring.answers wrapping).1, (ring.answers wrapping).2.toList)) =
        some (wrapped, [8, 7, 6]) := by
    decide +kernel
  rw [hring] at hseen
  obtain ⟨hanswers, hreached⟩ := Prod.mk.inj (Option.some.inj hseen)
  rw [hanswers, hreached] at hlist
  exact ⟨ring, hring, hlist, by rw [hperforms]; rfl⟩

end Ring
end TopicBridge
