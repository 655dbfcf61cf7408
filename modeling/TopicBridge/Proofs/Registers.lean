import Mathlib.Logic.Function.Iterate
import TopicBridge.Checksum

/-! The check by table is the check that takes the bits one at a time. A shift of the register is
linear in exclusive or, so what becomes of a word is put together from what becomes of its single
bits, and the high half may pass down while the low half is looked up. -/
namespace TopicBridge.Checksum

/-- A bit of a word. The lowest is bit zero. -/
def bit (word : UInt16) (i : Nat) : Bool := word.toBitVec.getLsbD i

/-- The word of which one bit is set. -/
def single (i : Nat) : UInt16 := .ofBitVec (.twoPow 16 i)

/-- The word, if the bit that decides on it is set. -/
def masked (set : Bool) (word : UInt16) : UInt16 := if set then word else 0

section
variable {a b word : UInt16} {i : Nat}

theorem ext_bit (h : ∀ i < 16, bit a i = bit b i) : a = b :=
  UInt16.toBitVec_inj.mp (BitVec.eq_of_getLsbD_eq h)

theorem bit_of_le (word : UInt16) (h : 16 ≤ i) : bit word i = false :=
  BitVec.getLsbD_of_ge _ _ h

@[simp] theorem bit_zero (i : Nat) : bit 0 i = false := BitVec.getLsbD_zero

@[simp] theorem bit_xor (a b : UInt16) (i : Nat) : bit (a ^^^ b) i = (bit a i ^^ bit b i) := by
  rw [bit, UInt16.toBitVec_xor, BitVec.getLsbD_xor, bit, bit]

@[simp] theorem bit_single (i j : Nat) : bit (single i) j = (decide (i < 16) && decide (i = j)) :=
  BitVec.getLsbD_twoPow i j

@[simp] theorem bit_masked (set : Bool) (word : UInt16) (i : Nat) :
    bit (masked set word) i = (set && bit word i) := by
  cases set <;> simp [masked]

@[simp] theorem bit_shiftRight_one (word : UInt16) (i : Nat) :
    bit (word >>> 1) i = bit word (i + 1) := by
  rw [Nat.add_comm]
  exact BitVec.getLsbD_ushiftRight word.toBitVec 1 i

@[simp] theorem bit_shiftRight_eight (word : UInt16) (i : Nat) :
    bit (word >>> 8) i = bit word (i + 8) := by
  rw [Nat.add_comm]
  exact BitVec.getLsbD_ushiftRight word.toBitVec 8 i

theorem bit_toUInt16 (octet : UInt8) (i : Nat) :
    bit octet.toUInt16 i = octet.toBitVec.getLsbD i := by
  rw [bit, UInt8.toBitVec_toUInt16, BitVec.getLsbD_setWidth, Bool.and_eq_right_iff_imp]
  intro h
  have := BitVec.lt_of_getLsbD h
  exact decide_eq_true (by omega)

theorem getLsbD_toUInt8 (word : UInt16) (h : i < 8) :
    word.toUInt8.toBitVec.getLsbD i = bit word i := by
  rw [UInt16.toBitVec_toUInt8, BitVec.getLsbD_setWidth, decide_eq_true h, Bool.true_and, bit]

theorem and_one_eq_one_iff (word : UInt16) : word &&& 1 = 1 ↔ bit word 0 = true := by
  have hbits : (word &&& 1).toBitVec = (BitVec.ofBool (bit word 0)).setWidth 16 := by
    rw [UInt16.toBitVec_and]
    exact BitVec.and_one_eq_setWidth_ofBool_getLsbD
  rw [← UInt16.toBitVec_inj, hbits]
  cases bit word 0 <;> decide

theorem masked_xor (set also : Bool) (word : UInt16) :
    masked (set ^^ also) word = masked set word ^^^ masked also word := by
  cases set <;> cases also <;> simp [masked]

end

/-- A map of words that may as well be applied before an exclusive or as after it. -/
def Linear (f : UInt16 → UInt16) : Prop := ∀ a b, f (a ^^^ b) = f a ^^^ f b

/-- The columns whose bits are set, of the first `n`, all put together. -/
def mix (bits : Nat → Bool) (column : Nat → UInt16) : Nat → UInt16
  | 0 => 0
  | n + 1 => mix bits column n ^^^ masked (bits n) (column n)

section
variable {f g : UInt16 → UInt16} {bits more : Nat → Bool} {column : Nat → UInt16} {n : Nat}

theorem mix_xor (n : Nat) :
    mix (fun i => bits i ^^ more i) column n = mix bits column n ^^^ mix more column n := by
  induction n with
  | zero => simp [mix]
  | succ n ih =>
      rw [mix, mix, mix, ih, masked_xor]
      ac_rfl

theorem linear_mix (column : Nat → UInt16) (n : Nat) :
    Linear fun word => mix (bit word) column n := by
  intro a b
  have hbits : bit (a ^^^ b) = fun i => bit a i ^^ bit b i := funext (bit_xor a b)
  simp only [hbits, mix_xor]

theorem bit_mix_single (h : n ≤ 16) (i : Nat) :
    bit (mix bits single n) i = (decide (i < n) && bits i) := by
  induction n with
  | zero => simp [mix]
  | succ n ih =>
      rw [mix, bit_xor, ih (Nat.le_of_succ_le h), bit_masked, bit_single,
        decide_eq_true (Nat.lt_of_succ_le h)]
      grind

theorem mix_bit_single (word : UInt16) : mix (bit word) single 16 = word := by
  apply ext_bit
  intro i hi
  rw [bit_mix_single (Nat.le_refl 16), decide_eq_true hi, Bool.true_and]

theorem Linear.map_zero (h : Linear f) : f 0 = 0 := by
  have hself := h 0 0
  rwa [UInt16.xor_self, UInt16.xor_self] at hself

theorem Linear.map_masked (h : Linear f) (set : Bool) (word : UInt16) :
    f (masked set word) = masked set (f word) := by
  cases set with
  | false => exact h.map_zero
  | true => rfl

theorem Linear.map_mix (h : Linear f) (n : Nat) :
    f (mix bits column n) = mix bits (fun i => f (column i)) n := by
  induction n with
  | zero => exact h.map_zero
  | succ n ih => rw [mix, h, ih, h.map_masked, mix]

/-- What a linear map makes of the single bits is all there is to know of it. -/
theorem Linear.ext (hf : Linear f) (hg : Linear g) (h : ∀ i < 16, f (single i) = g (single i))
    (word : UInt16) : f word = g word := by
  have hmix : ∀ n ≤ 16, mix (bit word) (fun i => f (single i)) n =
      mix (bit word) (fun i => g (single i)) n := by
    intro n hn
    induction n with
    | zero => rfl
    | succ n ih => rw [mix, mix, ih (Nat.le_of_succ_le hn), h n hn]
  rw [← mix_bit_single word, hf.map_mix, hg.map_mix, hmix 16 (Nat.le_refl 16)]

theorem Linear.comp (hf : Linear f) (hg : Linear g) : Linear (f ∘ g) := by
  intro a b
  rw [Function.comp_apply, hg, hf, Function.comp_apply, Function.comp_apply]

theorem Linear.iterate (h : Linear f) (n : Nat) : Linear f^[n] := by
  induction n with
  | zero => exact fun _ _ => rfl
  | succ n ih =>
      intro a b
      rw [Function.iterate_succ_apply, h, ih, ← Function.iterate_succ_apply,
        ← Function.iterate_succ_apply]

end

section
variable {register word : UInt16} {n : Nat}

theorem shift_eq (register : UInt16) :
    shift register = (register >>> 1) ^^^ masked (bit register 0) 0xA001 := by
  rw [shift]
  split
  · next hset => rw [(and_one_eq_one_iff register).mp hset, masked, if_pos rfl]
  · next hclear =>
      rw [and_one_eq_one_iff, Bool.not_eq_true] at hclear
      rw [hclear, masked, if_neg Bool.false_ne_true, UInt16.xor_zero]

theorem linear_shift : Linear shift := by
  intro a b
  rw [shift_eq, shift_eq, shift_eq, UInt16.shiftRight_xor, bit_xor, masked_xor]
  ac_rfl

/-- Zeros that leave the register have no effect on the bits behind them. -/
theorem bit_shifts_of_clear (h : ∀ i < n, bit word i = false) (i : Nat) :
    bit (shift^[n] word) i = bit word (i + n) := by
  induction n generalizing i with
  | zero => rfl
  | succ n ih =>
      have hclear : ∀ i < n, bit word i = false := fun i hi => h i (Nat.lt_succ_of_lt hi)
      have hlast : bit (shift^[n] word) 0 = false := by
        rw [ih hclear, Nat.zero_add]
        exact h n (Nat.lt_succ_self n)
      rw [Function.iterate_succ_apply', shift_eq, hlast, bit_xor, bit_shiftRight_one, ih hclear]
      simp [Nat.add_assoc, Nat.add_comm 1]

theorem shifts_zero (n : Nat) : shift^[n] 0 = 0 := (linear_shift.iterate n).map_zero

theorem shifts_single (h : n < 16) : shift^[n] (single n) = single 0 := by
  apply ext_bit
  intro i hi
  rw [bit_shifts_of_clear, bit_single, bit_single]
  · simp [h, eq_comm]
  · intro i hi
    simp [Nat.ne_of_gt hi]

/-- A one that leaves the register comes back in at its top. -/
theorem bit_shift_last (word : UInt16) : bit (shift word) 15 = bit word 0 := by
  have hlast : bit 0xA001 15 = true := by decide
  rw [shift_eq, bit_xor, bit_shiftRight_one, bit_of_le word (Nat.le_refl 16), bit_masked, hlast,
    Bool.and_true, Bool.false_xor]

theorem eq_zero_of_shift (h : shift word = 0) : word = 0 := by
  have hlowest : bit word 0 = false := by rw [← bit_shift_last, h, bit_zero]
  apply ext_bit
  intro i _
  cases i with
  | zero => exact hlowest
  | succ i =>
      rw [shift_eq, hlowest, masked, if_neg Bool.false_ne_true, UInt16.xor_zero] at h
      rw [← bit_shiftRight_one, h, bit_zero, bit_zero]

theorem shift_injective : Function.Injective shift := by
  intro a b h
  apply UInt16.xor_eq_zero_iff.mp
  apply eq_zero_of_shift
  rw [linear_shift, h, UInt16.xor_self]

end

theorem entry_eq (octet : UInt8) : entry octet = shift^[8] octet.toUInt16 := by
  have hindex : UInt16.ofNat octet.toNat = octet.toUInt16 := by simp
  have hfound : entry octet = shiftOctet (UInt16.ofNat octet.toNat) :=
    Vector.getElem_ofFn octet.toNat_lt
  rw [hfound, hindex]
  rfl

/-- The table step and eight bits out of the register come to the same. -/
theorem step_eq_serialStep (register : UInt16) (octet : UInt8) :
    step register octet = serialStep register octet := by
  have hsplit : register ^^^ octet.toUInt16 =
      (register ^^^ register.toUInt8.toUInt16) ^^^ (register.toUInt8 ^^^ octet).toUInt16 := by
    rw [UInt8.toUInt16_xor, UInt16.xor_assoc, ← UInt16.xor_assoc register.toUInt8.toUInt16,
      UInt16.xor_self, UInt16.zero_xor]
  have hclear : ∀ i < 8, bit (register ^^^ register.toUInt8.toUInt16) i = false := by
    intro i hi
    rw [bit_xor, bit_toUInt16, getLsbD_toUInt8 register hi, Bool.xor_self]
  have hhigh : shift^[8] (register ^^^ register.toUInt8.toUInt16) = register >>> 8 := by
    apply ext_bit
    intro i _
    have hbeyond : register.toUInt8.toBitVec.getLsbD (i + 8) = false :=
      BitVec.getLsbD_of_ge _ _ (Nat.le_add_left 8 i)
    rw [bit_shifts_of_clear hclear, bit_shiftRight_eight, bit_xor, bit_toUInt16, hbeyond,
      Bool.xor_false]
  calc step register octet
      = (register >>> 8) ^^^ shift^[8] (register.toUInt8 ^^^ octet).toUInt16 := by
        rw [step, entry_eq]
    _ = shift^[8] (register ^^^ octet.toUInt16) := by
        rw [hsplit, linear_shift.iterate, hhigh]
    _ = serialStep register octet := rfl

theorem update_eq_serial (register : UInt16) (data : Bytes) :
    update register data = serial register data := by
  have hstep : step = serialStep := funext fun register => funext (step_eq_serialStep register)
  rw [update, hstep, serial]

theorem update_append (register : UInt16) (front back : Bytes) :
    update register (front ++ back) = update (update register front) back :=
  List.foldl_append

/-- From any register, the check by table is the one that takes the bits one at a time, and it may
be taken of a string in parts. -/
theorem update_serially (register : UInt16) :
    (∀ data, update register data = serial register data) ∧
      ∀ front back, update (update register front) back = update register (front ++ back) :=
  ⟨update_eq_serial register, fun front back => (update_append register front back).symm⟩

end TopicBridge.Checksum
