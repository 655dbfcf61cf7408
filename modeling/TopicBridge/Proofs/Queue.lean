import TopicBridge.Ring

/-! What each queue operation does to the list of buffered octets. The circular store is met
here only: later proofs see a queue as its list and its capacity. -/
namespace TopicBridge.Ring

@[simp] theorem length_toList (ring : Ring) : ring.toList.length = ring.length := by
  simp [toList]

theorem getElem?_toList (ring : Ring) (index : Nat) (h : index < ring.length) :
    ring.toList[index]? = some (ring.slot index) := by
  simp [toList, h]

theorem getElem?_store (ring : Ring) (index : Nat) :
    ring.store[(ring.head + index) % ring.store.size]? = some (ring.slot index) := by
  have h : (ring.head + index) % ring.store.size < ring.store.size :=
    Nat.mod_lt _ (Nat.zero_lt_of_lt ring.head_lt)
  simp [slot, Array.getElem?_eq_getElem h]

theorem mod_ne_mod {size p q : Nat} (hlt : p < q) (hnear : q < p + size) :
    q % size ≠ p % size := by
  intro same
  have hzero : (q - p) % size = 0 := Nat.sub_mod_eq_zero_of_mod_eq same
  rw [Nat.mod_eq_of_lt (by omega)] at hzero
  omega

/-- Writing touches the positions written to and no other one of the turn that begins there. -/
theorem getElem?_writeFrom (store : Array UInt8) (position : Nat) (data : Bytes) (p : Nat)
    (hfits : data.length ≤ store.size) (hlow : position ≤ p) (hhigh : p < position + store.size) :
    (writeFrom store position data)[p % store.size]? =
      if p - position < data.length then data[p - position]? else store[p % store.size]? := by
  induction data generalizing store position p with
  | nil => simp [writeFrom]
  | cons b rest ih =>
      have hsize : (store.setIfInBounds (position % store.size) b).size = store.size :=
        Array.size_setIfInBounds
      have hrest : rest.length + 1 ≤ store.size := hfits
      have hstep := ih (store.setIfInBounds (position % store.size) b) (position + 1)
      rw [hsize] at hstep
      simp only [writeFrom]
      rcases Nat.eq_or_lt_of_le hlow with rfl | hlater
      · have hturn := hstep (position + store.size) (by omega) (by omega) (by omega)
        rw [Nat.add_mod_right] at hturn
        have hmod : position % store.size < store.size := Nat.mod_lt _ (by omega)
        rw [hturn, if_neg (by omega)]
        simp [hmod]
      · rw [hstep p (by omega) (by omega) (by omega)]
        have hapart : position % store.size ≠ p % store.size := (mod_ne_mod hlater hhigh).symm
        have hindex : p - position = p - (position + 1) + 1 := by omega
        simp only [hindex, List.length_cons, Nat.add_lt_add_iff_right, List.getElem?_cons_succ,
          Array.getElem?_setIfInBounds_ne hapart]

theorem toList_ofCapacity {capacity : Nat} {ring : Ring}
    (h : ofCapacity? capacity = some ring) : ring.toList = [] ∧ ring.capacity = capacity := by
  unfold ofCapacity? at h
  split at h
  · cases h
    exact ⟨List.length_eq_zero_iff.mp (length_toList _), Array.size_replicate⟩
  · cases h

theorem exists_ofCapacity {capacity : Nat} (h : 0 < capacity) :
    ∃ ring, ofCapacity? capacity = some ring := by
  simp [ofCapacity?, h]

@[simp] theorem toList_skip (ring : Ring) (n : Nat) :
    (ring.skip n).toList = ring.toList.drop n := by
  apply List.ext_getElem?
  intro index
  have hlength : (ring.skip n).length = ring.length - min n ring.length := rfl
  by_cases hindex : index < (ring.skip n).length
  · rw [getElem?_toList _ _ hindex, List.getElem?_drop, getElem?_toList _ _ (by omega),
      ← getElem?_store, ← getElem?_store]
    have havailable : ring.available n = n := by
      simp only [available]
      omega
    have hleft : ¬ ring.length ≤ n := by omega
    simp only [skip, havailable, if_neg hleft, Nat.mod_add_mod, Nat.add_assoc]
  · have hdrop : (ring.toList.drop n).length = ring.length - n := by simp
    rw [List.getElem?_eq_none (by rw [length_toList]; omega),
      List.getElem?_eq_none (by rw [hdrop]; omega)]

theorem length_add_free (ring : Ring) : ring.length + ring.free = ring.capacity := by
  have := ring.length_le
  simp only [free, capacity]
  omega

theorem free_of_toList_eq_nil {ring : Ring} (h : ring.toList = []) :
    ring.free = ring.capacity := by
  have hroom := ring.length_add_free
  rw [← length_toList, h, List.length_nil, Nat.zero_add] at hroom
  exact hroom

/-- Data that fits the free room is taken behind what is buffered. -/
theorem push_fits (ring : Ring) (data : Bytes) (h : data.length ≤ ring.free) :
    ∃ next, ring.push data = .ok next ∧ next.toList = ring.toList ++ data ∧
      next.capacity = ring.capacity := by
  have hroom := ring.length_add_free
  have hpositive : 0 < ring.store.size := Nat.zero_lt_of_lt ring.head_lt
  simp only [capacity] at hroom
  refine ⟨_, dif_pos h, ?_, size_writeFrom ..⟩
  apply List.ext_getElem?
  intro index
  rcases Nat.lt_or_ge index (ring.length + data.length) with hindex | hindex
  · rw [getElem?_toList _ _ hindex, ← getElem?_store]
    simp only [size_writeFrom]
    rcases Nat.lt_or_ge index ring.length with hold | hnew
    · rw [List.getElem?_append_left (by simpa using hold), getElem?_toList _ _ hold,
        ← getElem?_store]
      have hturn := getElem?_writeFrom ring.store (ring.head + ring.length) data
        (ring.head + index + ring.store.size) (by omega) (by omega) (by omega)
      rw [Nat.add_mod_right] at hturn
      rw [hturn, if_neg (by omega)]
    · have hwritten := getElem?_writeFrom ring.store (ring.head + ring.length) data
        (ring.head + index) (by omega) (by omega) (by omega)
      have hoffset : ring.head + index - (ring.head + ring.length) = index - ring.length := by omega
      rw [hwritten, hoffset, if_pos (by omega), List.getElem?_append_right (by simpa using hnew),
        length_toList]
  · rw [List.getElem?_eq_none (by rw [length_toList]; exact hindex),
      List.getElem?_eq_none (by simpa using hindex)]

end TopicBridge.Ring
