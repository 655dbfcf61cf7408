import TopicBridge.Proofs.Trimming
import TopicBridge.Text.Integer

/-! Decimal integers as text. The digits of a number are read back, behind any number of zeros, and
with a sign in front of them. -/
namespace TopicBridge.Text
variable {c : Char} {s : List Char}

/-- The decimal digits of a number behind some zeros. -/
def numeral (zeros n : Nat) : List Char := List.replicate zeros '0' ++ Nat.toDigits 10 n

theorem isDigit_of_mem_numeral {zeros n : Nat} (h : c ∈ numeral zeros n) : c.isDigit = true := by
  rcases List.mem_append.mp h with hzero | hdigit
  · rw [List.eq_of_mem_replicate hzero]
    rfl
  · exact Nat.isDigit_of_mem_toDigits (by decide) (by decide) hdigit

theorem range_of_isDigit (h : c.isDigit = true) : '0' ≤ c ∧ c ≤ '9' := by
  simp only [Char.isDigit, Bool.and_eq_true, decide_eq_true_eq] at h
  exact h

theorem digit?_of_isDigit (h : c.isDigit = true) : digit? c = some (c.toNat - '0'.toNat) := by
  rw [digit?, if_pos (range_of_isDigit h)]

theorem digitsFrom_of_isDigit (h : ∀ c ∈ s, c.isDigit = true) (value : Nat) :
    digitsFrom value s = some (Nat.ofDigitChars 10 s value) := by
  induction s generalizing value with
  | nil => rfl
  | cons c rest ih =>
      obtain ⟨hc, hrest⟩ := List.forall_mem_cons.mp h
      rw [digitsFrom, digit?_of_isDigit hc, Option.bind_some, ih hrest, Nat.ofDigitChars_cons,
        Nat.mul_comm]

theorem natural?_numeral (zeros n : Nat) : natural? (numeral zeros n) = some n := by
  have hsome : (numeral zeros n).isEmpty = false := by
    simp [numeral, Nat.toDigits_ne_nil]
  rw [natural?, hsome, if_neg Bool.false_ne_true,
    digitsFrom_of_isDigit fun _ => isDigit_of_mem_numeral, numeral, Nat.ofDigitChars_append,
    Nat.ofDigitChars_replicate_zero]
  simp

/-- The texts of an integer. What is not below zero may go without a sign. -/
inductive Spells : Int → List Char → Prop
  | unsigned (zeros n : Nat) : Spells n (numeral zeros n)
  | plus (zeros n : Nat) : Spells n ('+' :: numeral zeros n)
  | minus (zeros n : Nat) : Spells (-n) ('-' :: numeral zeros n)

theorem Spells.integer? {n : Int} (h : Spells n s) : integer? s = some n := by
  cases h with
  | unsigned zeros n =>
      have hhead : ∀ c rest, numeral zeros n = c :: rest → c.isDigit = true := by
        intro c rest heq
        exact isDigit_of_mem_numeral (heq ▸ List.mem_cons_self)
      unfold Text.integer?
      split
      · next rest heq => exact absurd (hhead '+' rest heq) (by decide)
      · next rest heq => exact absurd (hhead '-' rest heq) (by decide)
      · rw [natural?_numeral]
        rfl
  | plus zeros n => rw [Text.integer?, natural?_numeral]; rfl
  | minus zeros n => rw [Text.integer?, natural?_numeral]; rfl

theorem solid_numeral (zeros n : Nat) : Solid (numeral zeros n) := by
  intro c hc
  obtain ⟨hlow, hhigh⟩ := range_of_isDigit (isDigit_of_mem_numeral hc)
  have hlow : 48 ≤ c.toNat := hlow
  have hhigh : c.toNat ≤ 57 := hhigh
  grind [isBlank]

theorem Spells.solid {n : Int} (h : Spells n s) : Solid s := by
  cases h with
  | unsigned zeros n => exact solid_numeral zeros n
  | plus zeros n => exact List.forall_mem_cons.mpr ⟨by decide, solid_numeral zeros n⟩
  | minus zeros n => exact List.forall_mem_cons.mpr ⟨by decide, solid_numeral zeros n⟩

theorem contains_signed (n : Int64) : (IntegerRange.signed 64).contains n.toInt = true := by
  rw [IntegerRange.contains, Bool.and_eq_true, decide_eq_true_eq, decide_eq_true_eq]
  exact ⟨n.le_toInt, n.toInt_le⟩

theorem int64?_trim_of_spells {n : Int64} {core : List Char} (h : Spells n.toInt core)
    (hblanks : BetweenBlanks core s) : int64? (trim s) = some n := by
  rw [trim_of_betweenBlanks hblanks h.solid, int64?, h.integer?, Option.bind_some,
    if_pos (contains_signed n), Int64.ofInt_toInt]

end TopicBridge.Text
