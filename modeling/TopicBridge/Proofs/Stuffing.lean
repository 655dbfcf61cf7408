import TopicBridge.Cobs
import Mathlib.Data.List.TakeWhile

/-! Stuffing as a relation between data and record, one rule for each way a block can end.
The encoder keeps to it, and from it follow the round trip, the absence of zeros and the size
of the record. -/
namespace TopicBridge.Cobs

/-- A record for some data. A zero ends a block that is not full and is left out. -/
inductive Stuffed : Bytes → Bytes → Prop
  | last {data : Bytes} : 0 ∉ data → data.length ≤ 254 → Stuffed data (coded data)
  | zero {data rest out : Bytes} : 0 ∉ data → data.length < 254 → Stuffed rest out →
      Stuffed (data ++ 0 :: rest) (coded data ++ out)
  | full {data rest out : Bytes} : 0 ∉ data → data.length = 254 → rest ≠ [] → Stuffed rest out →
      Stuffed (data ++ rest) (coded data ++ out)

theorem takeWhile_append_zero {data : Bytes} (h : 0 ∉ data) (rest : Bytes) :
    (data ++ 0 :: rest).takeWhile (· ≠ 0) = data := by
  have hdata : ∀ b ∈ data, decide (b ≠ 0) = true := by
    intro b member
    simpa using ne_of_mem_of_not_mem member h
  rw [List.takeWhile_append_of_pos hdata, List.takeWhile_cons_of_neg (by simp), List.append_nil]

theorem takeWhile_of_zero_not_mem {s : Bytes} (h : 0 ∉ s) : s.takeWhile (· ≠ 0) = s := by
  rw [List.takeWhile_eq_self_iff]
  intro b member
  simpa using ne_of_mem_of_not_mem member h

/-- Only the end of the data, a zero or 254 octets end a block. -/
theorem block_cases (s : Bytes) :
    (∃ data rest, s = data ++ 0 :: rest ∧ block s = data ∧ data.length < 254) ∨
    (∃ data rest, s = data ++ rest ∧ block s = data ∧ data.length = 254 ∧ rest ≠ []) ∨
    (block s = s ∧ s.length ≤ 254) := by
  have hsplit : s.take 254 ++ s.drop 254 = s := List.take_append_drop 254 s
  have hlength : (s.take 254).length = min 254 s.length := List.length_take
  by_cases hzero : (0 : UInt8) ∈ s.take 254
  · obtain ⟨data, rest, htake, hdata⟩ := List.eq_append_cons_of_mem hzero
    refine Or.inl ⟨data, rest ++ s.drop 254, ?_, ?_, ?_⟩
    · rw [← List.cons_append, ← List.append_assoc, ← htake, hsplit]
    · rw [block, htake, takeWhile_append_zero hdata]
    · rw [htake] at hlength
      simp only [List.length_append, List.length_cons] at hlength
      omega
  · have hblock : block s = s.take 254 := takeWhile_of_zero_not_mem hzero
    by_cases hrest : s.drop 254 = []
    · have hshort : s.length ≤ 254 := List.drop_eq_nil_iff.mp hrest
      exact Or.inr (Or.inr ⟨by rw [hblock, List.take_of_length_le hshort], hshort⟩)
    · have hlong : ¬ s.length ≤ 254 := fun hle => hrest (List.drop_eq_nil_of_le hle)
      exact Or.inr (Or.inl ⟨s.take 254, s.drop 254, hsplit.symm, hblock, by omega, hrest⟩)

theorem zero_not_mem_block (s : Bytes) : 0 ∉ block s := by
  intro member
  simpa using List.mem_takeWhile_imp member

theorem stuffed_blocks (s : Bytes) : Stuffed s (blocks s) := by
  induction hn : s.length using Nat.strongRecOn generalizing s with
  | ind n ih =>
      have hclean := zero_not_mem_block s
      rw [blocks]
      rcases block_cases s with ⟨data, rest, rfl, hblock, hroom⟩ |
        ⟨data, rest, rfl, hblock, hfull, hrest⟩ | ⟨hblock, hroom⟩
      · rw [hblock] at hclean
        simp only [List.length_append, List.length_cons] at hn
        have htail := ih rest.length (by omega) rest rfl
        simp only [hblock, List.drop_left, reduceCtorEq, if_false, Nat.ne_of_lt hroom,
          List.drop_succ_cons, List.drop_zero]
        exact .zero hclean hroom htail
      · rw [hblock] at hclean
        simp only [List.length_append] at hn
        have htail := ih rest.length (by omega) rest rfl
        simp only [hblock, List.drop_left, hrest, if_false, if_pos hfull]
        exact .full hclean hfull hrest htail
      · rw [hblock] at hclean
        simp only [hblock, List.drop_length, if_true]
        exact .last hclean hroom

theorem toNat_code {data : Bytes} (h : data.length ≤ 254) :
    (UInt8.ofNat (data.length + 1)).toNat = data.length + 1 := by
  rw [UInt8.toNat_ofNat']
  omega

theorem Stuffed.ne_nil {data out : Bytes} (h : Stuffed data out) : out ≠ [] := by
  cases h <;> exact List.cons_ne_nil _ _

/-- A code octet and its block are read back together, whatever record follows. -/
theorem unstuff_coded {data : Bytes} (h : data.length ≤ 254) (out : Bytes) :
    unstuff (coded data ++ out) =
      (unstuff out).map fun more =>
        if data.length = 254 ∨ out = [] then data ++ more else data ++ 0 :: more := by
  have hcode := toNat_code h
  have hfull : UInt8.ofNat (data.length + 1) = 0xFF ↔ data.length = 254 := by
    rw [← UInt8.toNat_inj, hcode]
    show data.length + 1 = 255 ↔ _
    omega
  simp only [coded, List.cons_append, unstuff, hcode, Nat.add_sub_cancel, List.take_left,
    List.drop_left, Nat.lt_irrefl, if_false, hfull]

theorem Stuffed.unstuff {data out : Bytes} (h : Stuffed data out) : unstuff out = some data := by
  induction h with
  | last hclean hroom =>
      have hcoded := unstuff_coded hroom []
      simpa [Cobs.unstuff] using hcoded
  | zero hclean hroom hrest ih =>
      rw [unstuff_coded (Nat.le_of_lt hroom), ih]
      simp [Nat.ne_of_lt hroom, hrest.ne_nil]
  | full hclean hfull hmore hrest ih =>
      rw [unstuff_coded (Nat.le_of_eq hfull), ih]
      simp [hfull]

theorem zero_not_mem_coded {data : Bytes} (hclean : 0 ∉ data) (h : data.length ≤ 254) :
    0 ∉ coded data := by
  intro member
  rcases List.mem_cons.mp member with hcode | hdata
  · have hnat := congrArg UInt8.toNat hcode
    rw [toNat_code h] at hnat
    cases hnat
  · exact hclean hdata

theorem Stuffed.zero_not_mem {data out : Bytes} (h : Stuffed data out) : 0 ∉ out := by
  induction h with
  | last hclean hroom => exact zero_not_mem_coded hclean hroom
  | zero hclean hroom hrest ih =>
      rw [List.mem_append, not_or]
      exact ⟨zero_not_mem_coded hclean (Nat.le_of_lt hroom), ih⟩
  | full hclean hfull hmore hrest ih =>
      rw [List.mem_append, not_or]
      exact ⟨zero_not_mem_coded hclean (Nat.le_of_eq hfull), ih⟩

theorem Stuffed.length_le {data out : Bytes} (h : Stuffed data out) :
    out.length ≤ data.length + data.length / 254 + 1 := by
  induction h with
  | last hclean hroom =>
      simp only [coded, List.length_cons]
      omega
  | zero hclean hroom hrest ih =>
      simp only [coded, List.length_append, List.length_cons]
      omega
  | full hclean hfull hmore hrest ih =>
      simp only [coded, List.length_append, List.length_cons]
      omega

/-- Octets without a zero at the end of the data take a code octet for each 254 of them. -/
theorem Stuffed.le_length {data out clean : Bytes} (h : Stuffed data out) (hend : clean <:+ data)
    (hclean : 0 ∉ clean) : data.length + (clean.length - 1) / 254 + 1 ≤ out.length := by
  induction h generalizing clean with
  | last _ hroom =>
      have hshort := hend.length_le
      simp only [coded, List.length_cons]
      omega
  | @zero data rest out _ _ _ ih =>
      have hbehind : clean <:+ rest := by
        rcases List.suffix_or_suffix_of_suffix hend (List.suffix_append data _) with h | h
        · rcases List.suffix_cons_iff.mp h with rfl | hrest
          · exact absurd List.mem_cons_self hclean
          · exact hrest
        · exact absurd (h.subset List.mem_cons_self) hclean
      have hmore := ih hbehind hclean
      simp only [coded, List.length_append, List.length_cons]
      omega
  | @full data rest out _ hfull hne _ ih =>
      have hrest := List.length_pos_iff.mpr hne
      simp only [coded, List.length_append, List.length_cons]
      rcases List.suffix_or_suffix_of_suffix hend (List.suffix_append data rest) with h | h
      · have hmore := ih h hclean
        omega
      · have hmore := ih List.suffix_rfl (fun hzero => hclean (h.subset hzero))
        have hlength := hend.length_le
        rw [List.length_append] at hlength
        omega

theorem unstuff_stuff (s : Bytes) : unstuff (stuff s) = some s := by
  unfold stuff
  split
  · next hempty =>
      rw [List.isEmpty_iff.mp hempty]
      simp [unstuff]
  · exact (stuffed_blocks s).unstuff

theorem zero_not_mem_stuff (s : Bytes) : 0 ∉ stuff s := by
  unfold stuff
  split
  · exact List.not_mem_nil
  · exact (stuffed_blocks s).zero_not_mem

theorem length_stuff_le (s : Bytes) : (stuff s).length ≤ s.length + s.length / 254 + 1 := by
  unfold stuff
  split
  · exact Nat.zero_le _
  · exact (stuffed_blocks s).length_le

theorem le_length_stuff {s clean : Bytes} (hne : s ≠ []) (hend : clean <:+ s) (hclean : 0 ∉ clean) :
    s.length + (clean.length - 1) / 254 + 1 ≤ (stuff s).length := by
  unfold stuff
  rw [if_neg (by simpa using hne)]
  exact (stuffed_blocks s).le_length hend hclean

theorem stuff_ne_nil {s : Bytes} (h : s ≠ []) : stuff s ≠ [] := by
  unfold stuff
  rw [if_neg (by simpa using h)]
  exact (stuffed_blocks s).ne_nil

end TopicBridge.Cobs
