import Mathlib.Algebra.Ring.Parity
import Mathlib.Data.Finset.Card
import Mathlib.Order.Interval.Finset.Nat
import TopicBridge.Proofs.Cycles

/-! Which differences between two strings show in their checks. The exclusive or of the checks is
what the differing bits alone leave in the register. Sixteen places in a row enter it at once, the
number of its bits stays odd or even through every shift, and a second bit finds it as the first one
did only after a whole period. -/
namespace TopicBridge.Checksum

/-- The register behind the first `n` bits of a stream. -/
def after (stream : Nat → Bool) : Nat → UInt16
  | 0 => 0
  | n + 1 => shift (after stream n ^^^ masked (stream n) (single 0))

section
variable {stream other : Nat → Bool} {m n : Nat}

theorem after_congr (h : ∀ i < n, stream i = other i) : after stream n = after other n := by
  induction n with
  | zero => rfl
  | succ n ih => rw [after, after, ih fun i hi => h i (Nat.lt_succ_of_lt hi), h n n.lt_succ_self]

theorem after_xor (n : Nat) :
    after (fun i => stream i ^^ other i) n = after stream n ^^^ after other n := by
  induction n with
  | zero => simp [after]
  | succ n ih =>
      rw [after, after, after, ih, masked_xor, ← linear_shift]
      congr 1
      ac_rfl

/-- Up to sixteen bits may as well enter at once and then be shifted out. -/
theorem after_add (stream : Nat → Bool) (m : Nat) (h : n ≤ 16) :
    after stream (m + n) =
      shift^[n] (after stream m ^^^ mix (fun i => stream (m + i)) single n) := by
  induction n with
  | zero => simp [mix]
  | succ n ih =>
      have henters : masked (stream (m + n)) (single 0) =
          shift^[n] (masked (stream (m + n)) (single n)) := by
        rw [(linear_shift.iterate n).map_masked, shifts_single (Nat.lt_of_succ_le h)]
      rw [← Nat.add_assoc, after, ih (Nat.le_of_succ_le h), henters, ← linear_shift.iterate,
        Function.iterate_succ_apply', mix, UInt16.xor_assoc]

theorem after_add_of_clear (h : ∀ i < n, stream (m + i) = false) :
    after stream (m + n) = shift^[n] (after stream m) := by
  induction n with
  | zero => rfl
  | succ n ih =>
      rw [← Nat.add_assoc, after, ih fun i hi => h i (Nat.lt_succ_of_lt hi), h n n.lt_succ_self,
        masked, if_neg Bool.false_ne_true, UInt16.xor_zero, Function.iterate_succ_apply']

theorem after_of_clear (h : ∀ i < n, stream i = false) : after stream n = 0 := by
  have hnone : after stream n = after (fun _ => false) (0 + n) := by
    rw [Nat.zero_add, after_congr h]
  rw [hnone, after_add_of_clear fun _ _ => rfl, after, shifts_zero]

/-- Once the ones are over, a register that is not empty stays so and an empty one, too. -/
theorem after_ne_zero_of_clear (hm : ∀ i, m ≤ i → stream i = false)
    (hn : ∀ i, n ≤ i → stream i = false) (h : after stream m ≠ 0) : after stream n ≠ 0 := by
  intro hzero
  rcases Nat.le_total m n with hle | hle
  · obtain ⟨k, rfl⟩ := Nat.exists_eq_add_of_le hle
    rw [after_add_of_clear fun i _ => hm _ (Nat.le_add_right m i)] at hzero
    exact h (shift_injective.iterate k (hzero.trans (shifts_zero k).symm))
  · obtain ⟨k, rfl⟩ := Nat.exists_eq_add_of_le hle
    rw [after_add_of_clear fun i _ => hn _ (Nat.le_add_right n i), hzero, shifts_zero] at h
    exact h rfl

end

/-- The bits in the order in which they are sent: octet by octet, the lowest bit first. -/
def bitAt (data : Bytes) (i : Nat) : Bool := (data.getD (i / 8) 0).toBitVec.getLsbD (i % 8)

section
variable {data a b : Bytes} {i : Nat}

theorem bitAt_of_octet (h : i < 8) (data : Bytes) (k : Nat) :
    bitAt data (8 * k + i) = (data.getD k 0).toBitVec.getLsbD i := by
  have hoctet : (8 * k + i) / 8 = k := by omega
  have hbit : (8 * k + i) % 8 = i := by omega
  rw [bitAt, hoctet, hbit]

theorem bitAt_of_le (h : 8 * data.length ≤ i) : bitAt data i = false := by
  have hoctet : data.length ≤ i / 8 := by omega
  rw [bitAt, List.getD_eq_getElem?_getD, List.getElem?_eq_none hoctet]
  exact BitVec.getLsbD_zero

theorem bitAt_append_of_lt (h : i < 8 * data.length) (more : Bytes) :
    bitAt (data ++ more) i = bitAt data i := by
  have hoctet : i / 8 < data.length := by omega
  rw [bitAt, bitAt, List.getD_eq_getElem?_getD, List.getElem?_append_left hoctet,
    ← List.getD_eq_getElem?_getD]

theorem crc16_eq_after (data : Bytes) : crc16 data = after (bitAt data) (8 * data.length) := by
  induction data using List.reverseRecOn with
  | nil => rfl
  | append_singleton data octet ih =>
      have hword : mix (fun i => bitAt (data ++ [octet]) (8 * data.length + i)) single 8 =
          octet.toUInt16 := by
        apply ext_bit
        intro i _
        rw [bit_mix_single (by decide), bit_toUInt16]
        by_cases hi : i < 8
        · rw [decide_eq_true hi, Bool.true_and, bitAt_of_octet hi]
          simp
        · rw [decide_eq_false hi, Bool.false_and, BitVec.getLsbD_of_ge _ _ (Nat.le_of_not_lt hi)]
      have hfront : after (bitAt (data ++ [octet])) (8 * data.length) = crc16 data := by
        rw [ih]
        exact after_congr fun i hi => bitAt_append_of_lt hi [octet]
      rw [List.length_append, List.length_singleton, Nat.mul_add, Nat.mul_one,
        after_add _ _ (by decide), hword, hfront, crc16, update_append, ← crc16, update_eq_serial]
      rfl

def differing (a b : Bytes) : Finset Nat :=
  {i ∈ Finset.range (8 * a.length) | bitAt a i ≠ bitAt b i}

theorem lt_of_mem_differing (h : i ∈ differing a b) : i < 8 * a.length :=
  Finset.mem_range.mp (Finset.mem_filter.mp h).1

theorem bitAt_xor_iff (hlength : a.length = b.length) :
    (bitAt a i ^^ bitAt b i) = true ↔ i ∈ differing a b := by
  rw [differing, Finset.mem_filter, Finset.mem_range, bne_iff_ne]
  constructor
  · intro hne
    refine ⟨Nat.lt_of_not_le fun hle => hne ?_, hne⟩
    rw [bitAt_of_le hle, bitAt_of_le (hlength ▸ hle)]
  · exact And.right

theorem differing_nonempty (hlength : a.length = b.length) (hne : a ≠ b) :
    (differing a b).Nonempty := by
  by_contra hnone
  rw [Finset.not_nonempty_iff_eq_empty, differing, Finset.filter_eq_empty_iff] at hnone
  apply hne
  apply List.ext_getElem hlength
  intro k hka hkb
  apply UInt8.toBitVec_inj.mp
  apply BitVec.eq_of_getLsbD_eq
  intro i hi
  have hplace : 8 * k + i < 8 * a.length := by omega
  have hsame := not_not.mp (hnone (Finset.mem_range.mpr hplace))
  rw [bitAt_of_octet hi, bitAt_of_octet hi] at hsame
  simpa [hka, hkb] using hsame

theorem crc16_xor (hlength : a.length = b.length) :
    crc16 a ^^^ crc16 b = after (fun i => bitAt a i ^^ bitAt b i) (8 * a.length) := by
  rw [after_xor, crc16_eq_after, crc16_eq_after, hlength]

end

/-- A one if the number of bits set is odd. -/
def parity (word : UInt16) : UInt16 := mix (bit word) (fun _ => single 0) 16

theorem linear_parity : Linear parity := linear_mix _ 16

/-- The bit that leaves puts three others in. -/
theorem parity_shift (word : UInt16) : parity (shift word) = parity word := by
  refine (linear_parity.comp linear_shift).ext linear_parity ?_ word
  decide +kernel

theorem parity_after (stream : Nat → Bool) (n : Nat) :
    parity (after stream n) =
      masked (decide (Odd {i ∈ Finset.range n | stream i}.card)) (single 0) := by
  have hsingle : parity (single 0) = single 0 := by decide +kernel
  induction n with
  | zero => simp [after, masked, linear_parity.map_zero]
  | succ n ih =>
      have hcard : decide (Odd {i ∈ Finset.range (n + 1) | stream i}.card) =
          (decide (Odd {i ∈ Finset.range n | stream i}.card) ^^ stream n) := by
        rw [Finset.range_add_one, Finset.filter_insert]
        cases hn : stream n with
        | false => simp
        | true => simp [Nat.odd_add_one, -Nat.not_odd_iff_even]
      rw [after, parity_shift, linear_parity, ih, linear_parity.map_masked, hsingle, hcard,
        masked_xor]

/-- Places within sixteen in a row, an odd number of them, or two at less than a period from each
other. -/
inductive Detectable (places : Finset Nat) : Prop
  | burst (start : Nat) : places ⊆ Finset.Ico start (start + 16) → Detectable places
  | odd : Odd places.card → Detectable places
  | pair : places.card = 2 → (∀ i ∈ places, ∀ j ∈ places, j < i + 32767) → Detectable places

section
variable {stream : Nat → Bool} {n : Nat}

theorem after_burst_ne_zero {start place : Nat} (hplace : stream place = true)
    (hstream : ∀ i, stream i = true → start ≤ i ∧ i < start + 16) :
    after stream (start + 16) ≠ 0 := by
  have hbefore : after stream start = 0 := by
    apply after_of_clear
    intro i hi
    rw [← Bool.not_eq_true]
    exact fun hset => Nat.not_lt.mpr (hstream i hset).1 hi
  obtain ⟨hfirst, hlast⟩ := hstream place hplace
  obtain ⟨k, rfl⟩ := Nat.exists_eq_add_of_le hfirst
  have hset : bit (mix (fun i => stream (start + i)) single 16) k = true := by
    rw [bit_mix_single (Nat.le_refl 16), hplace, Bool.and_true, decide_eq_true_eq]
    omega
  rw [after_add stream start (Nat.le_refl 16), hbefore, UInt16.zero_xor]
  intro hzero
  rw [shift_injective.iterate 16 (hzero.trans (shifts_zero 16).symm), bit_zero] at hset
  cases hset

theorem after_pair_ne_zero {first second : Nat} (hless : first < second)
    (hnear : second < first + 32767) (hstream : ∀ i, stream i = true ↔ i = first ∨ i = second) :
    after stream (second + 1) ≠ 0 := by
  have hclear : ∀ i, i ≠ first → i ≠ second → stream i = false := by
    intro i hfirst hsecond
    rw [← Bool.not_eq_true, hstream]
    exact not_or.mpr ⟨hfirst, hsecond⟩
  obtain ⟨gap, rfl⟩ := Nat.exists_eq_add_of_le (Nat.succ_le_of_lt hless)
  have hbefore : after stream first = 0 := after_of_clear fun i hi => hclear i (by omega) (by omega)
  have hfirst : after stream (first + 1) = shift (single 0) := by
    rw [after, hbefore, (hstream first).mpr (.inl rfl), masked, if_pos rfl, UInt16.zero_xor]
  have hbetween : after stream (first + 1 + gap) = shift^[gap + 1] (single 0) := by
    rw [after_add_of_clear fun i hi => hclear _ (by omega) (by omega), hfirst,
      Function.iterate_succ_apply]
  rw [Nat.succ_eq_add_one, after, hbetween, (hstream _).mpr (.inr rfl), masked, if_pos rfl]
  intro hzero
  exact shifts_single_ne gap.succ_pos (by omega)
    (UInt16.xor_eq_zero_iff.mp (eq_zero_of_shift hzero))

theorem exists_lt_of_card_eq_two {places : Finset Nat} (h : places.card = 2) :
    ∃ first second, first < second ∧ ∀ i, i ∈ places ↔ i = first ∨ i = second := by
  obtain ⟨i, j, hne, rfl⟩ := Finset.card_eq_two.mp h
  rcases Nat.lt_or_gt_of_ne hne with hlt | hgt
  · exact ⟨i, j, hlt, by simp⟩
  · exact ⟨j, i, hgt, by simp [or_comm]⟩

theorem Detectable.after_ne_zero {places : Finset Nat} (h : Detectable places)
    (hsome : places.Nonempty) (hstream : ∀ i, stream i = true ↔ i ∈ places)
    (hlast : ∀ i ∈ places, i < n) : after stream n ≠ 0 := by
  have hclear : ∀ last, (∀ i ∈ places, i < last) → ∀ i, last ≤ i → stream i = false := by
    intro last hbound i hi
    rw [← Bool.not_eq_true, hstream]
    exact fun hmem => Nat.not_lt.mpr hi (hbound i hmem)
  cases h with
  | burst start hburst =>
      obtain ⟨place, hplace⟩ := hsome
      have hwithin : ∀ i ∈ places, start ≤ i ∧ i < start + 16 := fun i hi =>
        Finset.mem_Ico.mp (hburst hi)
      have hfull : after stream (start + 16) ≠ 0 :=
        after_burst_ne_zero ((hstream place).mpr hplace) fun i hi =>
          hwithin i ((hstream i).mp hi)
      exact after_ne_zero_of_clear (hclear _ fun i hi => (hwithin i hi).2) (hclear n hlast) hfull
  | odd hodd =>
      have hplaces : {i ∈ Finset.range n | stream i} = places := by
        ext i
        rw [Finset.mem_filter, Finset.mem_range, hstream, and_iff_right_iff_imp]
        exact hlast i
      have hparity := parity_after stream n
      rw [hplaces, decide_eq_true hodd, masked, if_pos rfl] at hparity
      intro hzero
      rw [hzero, linear_parity.map_zero] at hparity
      exact absurd hparity (by decide)
  | pair htwo hnear =>
      obtain ⟨first, second, hless, hmem⟩ := exists_lt_of_card_eq_two htwo
      have hdistance := hnear first ((hmem first).mpr (.inl rfl)) second
        ((hmem second).mpr (.inr rfl))
      have hfull : after stream (second + 1) ≠ 0 :=
        after_pair_ne_zero hless hdistance fun i => (hstream i).trans (hmem i)
      refine after_ne_zero_of_clear (hclear _ ?_) (hclear n hlast) hfull
      intro i hi
      rcases (hmem i).mp hi with rfl | rfl <;> omega

end

/-- Strings of one length that differ have different checks whenever the places at which their bits
differ lie within sixteen in a row, or are odd in number, or are two at a distance of less than
32767. -/
theorem crc16_detects {a b : Bytes} (hlength : a.length = b.length) (hne : a ≠ b)
    (h : Detectable (differing a b)) : crc16 a ≠ crc16 b := by
  rw [← UInt16.xor_eq_zero_iff.ne, crc16_xor hlength]
  exact h.after_ne_zero (differing_nonempty hlength hne) (fun _ => bitAt_xor_iff hlength)
    fun _ => lt_of_mem_differing

/-- Two octets that are all wrong, three bits far apart, and the first bit and the last. -/
theorem crc16_detects_garbled :
    crc16 [0x31, 0x32, 0x33, 0x34] ≠ crc16 [0x31, 0xCD, 0xCC, 0x34] ∧
      crc16 [0x31, 0x32, 0x33, 0x34] ≠ crc16 [0x30, 0x32, 0x23, 0xB4] ∧
      crc16 [0x31, 0x32, 0x33, 0x34] ≠ crc16 [0x30, 0x32, 0x33, 0xB4] := by
  refine ⟨?_, ?_, ?_⟩
  · exact crc16_detects rfl (by decide) (.burst 8 (by decide +kernel))
  · exact crc16_detects rfl (by decide) (.odd (by decide +kernel))
  · exact crc16_detects rfl (by decide) (.pair (by decide +kernel) (by decide +kernel))

end TopicBridge.Checksum
