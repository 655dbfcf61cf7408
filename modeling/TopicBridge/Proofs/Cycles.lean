import Mathlib.Data.Nat.Prime.Basic
import Mathlib.Dynamics.PeriodicPts.Defs
import Mathlib.Tactic.NormNum.Prime
import TopicBridge.Proofs.Registers

/-! How many shifts it takes until a single bit stands alone in its place again. A word stands for a
polynomial modulo x^16 + x^15 + x^2 + 1, its highest bit for the constant, and a shift multiplies by
x. So the word after many shifts is a power of x, and squaring doubles the number of shifts. -/
namespace TopicBridge.Checksum

/-- The square of a polynomial over two elements has the same coefficients at twice the powers. -/
def square (word : UInt16) : UInt16 :=
  mix (bit word) (fun i => shift^[2 * (15 - i)] (single 15)) 16

theorem square_shift (word : UInt16) : square (shift word) = shift (shift (square word)) := by
  have hsquare : Linear square := linear_mix _ 16
  refine (hsquare.comp linear_shift).ext (linear_shift.comp (linear_shift.comp hsquare)) ?_ word
  decide +kernel

theorem square_shifts (n : Nat) :
    square (shift^[n] (single 15)) = shift^[2 * n] (single 15) := by
  induction n with
  | zero => decide +kernel
  | succ n ih =>
      rw [Function.iterate_succ_apply', square_shift, ih, Nat.mul_succ,
        Function.iterate_succ_apply', Function.iterate_succ_apply']

/-- The power of x with these binary digits, the highest first. -/
def power (digits : List Bool) : UInt16 :=
  digits.foldl (fun word digit => if digit then shift (square word) else square word) (single 15)

def exponent (digits : List Bool) : Nat :=
  digits.foldl (fun n digit => 2 * n + digit.toNat) 0

theorem power_eq_shifts (digits : List Bool) :
    power digits = shift^[exponent digits] (single 15) := by
  induction digits using List.reverseRecOn with
  | nil => rfl
  | append_singleton digits digit ih =>
      have hexponent : exponent (digits ++ [digit]) = 2 * exponent digits + digit.toNat := by
        rw [exponent, List.foldl_concat, ← exponent]
      rw [power, List.foldl_concat, ← power, ih, square_shifts, hexponent]
      cases digit with
      | false => rfl
      | true => exact (Function.iterate_succ_apply' shift _ (single 15)).symm

theorem isPeriodicPt_iff_power (digits : List Bool) :
    Function.IsPeriodicPt shift (exponent digits) (single 15) ↔ power digits = single 15 := by
  rw [power_eq_shifts]
  rfl

theorem eq_of_prime_dvd {p : Nat} (hp : p.Prime) (h : p ∣ 32767) : p = 7 ∨ p = 31 ∨ p = 151 := by
  have hfactors : 32767 = 7 * (31 * 151) := rfl
  rw [hfactors, hp.dvd_mul, hp.dvd_mul, Nat.prime_dvd_prime_iff_eq hp (by norm_num),
    Nat.prime_dvd_prime_iff_eq hp (by norm_num), Nat.prime_dvd_prime_iff_eq hp (by norm_num)] at h
  exact h

/-- No quotient of the period by a prime is one. -/
theorem not_isPeriodicPt_div {p : Nat} (hp : p.Prime) (h : p ∣ 32767) :
    ¬ Function.IsPeriodicPt shift (32767 / p) (single 15) := by
  rcases eq_of_prime_dvd hp h with rfl | rfl | rfl
  · exact (isPeriodicPt_iff_power (List.replicate 5 [false, false, true]).flatten).not.mpr
      (by decide +kernel)
  · exact (isPeriodicPt_iff_power
      (List.replicate 3 [false, false, false, false, true]).flatten).not.mpr (by decide +kernel)
  · exact (isPeriodicPt_iff_power [true, true, false, true, true, false, false, true]).not.mpr
      (by decide +kernel)

theorem minimalPeriod_shift : Function.minimalPeriod shift (single 15) = 32767 := by
  have hreturns : Function.IsPeriodicPt shift 32767 (single 15) :=
    (isPeriodicPt_iff_power (List.replicate 15 true)).mpr (by decide +kernel)
  obtain ⟨times, htimes⟩ := hreturns.minimalPeriod_dvd
  by_contra hless
  have hmany : times ≠ 1 := by
    rintro rfl
    rw [Nat.mul_one] at htimes
    exact hless htimes.symm
  obtain ⟨p, hp, rest, rfl⟩ := Nat.exists_prime_and_dvd hmany
  have hdvd : p ∣ 32767 := by
    rw [htimes, Nat.mul_left_comm]
    exact Nat.dvd_mul_right p _
  have hquotient : 32767 / p = Function.minimalPeriod shift (single 15) * rest := by
    rw [htimes, Nat.mul_left_comm, Nat.mul_div_cancel_left _ hp.pos]
  apply not_isPeriodicPt_div hp hdvd
  rw [hquotient]
  exact (Function.isPeriodicPt_minimalPeriod _ _).mul_const rest

/-- A lowest bit alone becomes the highest after one shift and comes down again, so it takes as long
to return. -/
theorem shifts_single_ne {n : Nat} (hpos : 0 < n) (hless : n < 32767) :
    shift^[n] (single 0) ≠ single 0 := by
  intro hreturns
  have hdown : shift^[15] (single 15) = single 0 := shifts_single (by decide)
  rw [← hdown, ← Function.iterate_add_apply, Nat.add_comm, Function.iterate_add_apply] at hreturns
  have hearly : Function.IsPeriodicPt shift n (single 15) := shift_injective.iterate 15 hreturns
  rw [← minimalPeriod_shift] at hless
  exact Function.not_isPeriodicPt_of_pos_of_lt_minimalPeriod (Nat.ne_of_gt hpos) hless hearly

end TopicBridge.Checksum
