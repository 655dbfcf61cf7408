import TopicBridge.Bytes

/-! Words and their two octets, and what a search finds: the first place from which the pattern
can be read. -/
namespace TopicBridge.Bytes

theorem toNat_toUInt16 (high low : UInt8) :
    (toUInt16 high low).toNat = high.toNat * 256 + low.toNat := by
  have hhigh : high.toNat < 256 := high.toNat_lt
  have hshift : high.toNat <<< 8 % 2 ^ 16 = high.toNat <<< 8 := by
    apply Nat.mod_eq_of_lt
    rw [Nat.shiftLeft_eq]
    omega
  have hor := Nat.shiftLeft_add_eq_or_of_lt (show low.toNat < 2 ^ 8 from low.toNat_lt) high.toNat
  simp only [toUInt16, UInt16.toNat_or, UInt16.toNat_shiftLeft, UInt8.toNat_toUInt16,
    UInt16.toNat_ofNat, Nat.reducePow, Nat.reduceMod] at hshift hor ⊢
  rw [hshift, ← hor, Nat.shiftLeft_eq]

theorem toNat_high (value : UInt16) : (value >>> 8).toUInt8.toNat = value.toNat / 256 := by
  have hlt : value.toNat < 65536 := value.toNat_lt
  simp only [UInt16.toNat_toUInt8, UInt16.toNat_shiftRight, UInt16.toNat_ofNat,
    Nat.shiftRight_eq_div_pow, Nat.reducePow, Nat.reduceMod]
  omega

theorem toNat_low (value : UInt16) : value.toUInt8.toNat = value.toNat % 256 :=
  UInt16.toNat_toUInt8 value

/-- The two octets of a word give the word back. -/
theorem toUInt16_ofUInt16 (value : UInt16) :
    toUInt16 (value >>> 8).toUInt8 value.toUInt8 = value := by
  apply UInt16.toNat_inj.mp
  rw [toNat_toUInt16, toNat_high, toNat_low]
  omega

/-- Every two octets are those of some word. -/
theorem ofUInt16_toUInt16 (high low : UInt8) : ofUInt16 (toUInt16 high low) = [high, low] := by
  have hhigh : (toUInt16 high low >>> 8).toUInt8 = high := by
    apply UInt8.toNat_inj.mp
    have := low.toNat_lt
    rw [toNat_high, toNat_toUInt16]
    omega
  have hlow : (toUInt16 high low).toUInt8 = low := by
    apply UInt8.toNat_inj.mp
    have := low.toNat_lt
    rw [toNat_low, toNat_toUInt16]
    omega
  rw [ofUInt16, hhigh, hlow]

theorem offsetFrom_eq_map (pattern : Bytes) (start : Nat) (s : Bytes) :
    offsetFrom pattern start s = (offsetFrom pattern 0 s).map (start + ·) := by
  induction s generalizing start with
  | nil => rfl
  | cons b rest ih =>
      rw [offsetFrom, offsetFrom]
      split
      · rfl
      · rw [ih (start + 1), ih (0 + 1), Option.map_map]
        congr 1
        funext n
        simp only [Function.comp_apply]
        omega

theorem offsetFrom_of_length_lt {pattern s : Bytes} (h : s.length < pattern.length)
    (start : Nat) : offsetFrom pattern start s = none := by
  induction s generalizing start with
  | nil => rfl
  | cons b rest ih =>
      have hlong : ¬ pattern.isPrefixOf (b :: rest) = true := by
        rw [List.isPrefixOf_iff_prefix]
        exact fun hprefix => absurd hprefix.length_le (Nat.not_le_of_lt h)
      rw [offsetFrom, if_neg hlong]
      exact ih (Nat.lt_of_succ_lt h) _

/-- A pattern is found here or in the rest. -/
theorem offsetOf?_cons {pattern : Bytes} (hpattern : pattern ≠ []) (b : UInt8) (rest : Bytes) :
    offsetOf? pattern (b :: rest) =
      if pattern <+: b :: rest then some 0 else (offsetOf? pattern rest).map (· + 1) := by
  have hempty : ¬ pattern.isEmpty = true := by simpa using hpattern
  simp only [offsetOf?, if_neg hempty, offsetFrom, List.isPrefixOf_iff_prefix]
  rw [offsetFrom_eq_map pattern (0 + 1)]
  simp only [Nat.zero_add, Nat.add_comm 1]

theorem offsetOf?_nil (pattern : Bytes) : offsetOf? pattern [] = none := by
  unfold offsetOf?
  split <;> rfl

theorem offsetOf?_eq_some_iff {pattern s : Bytes} (hpattern : pattern ≠ []) {n : Nat} :
    offsetOf? pattern s = some n ↔
      pattern <+: s.drop n ∧ ∀ m < n, ¬ pattern <+: s.drop m := by
  induction s generalizing n with
  | nil => simp [offsetOf?_nil, hpattern]
  | cons b rest ih =>
      rw [offsetOf?_cons hpattern]
      by_cases hhere : pattern <+: b :: rest
      · rw [if_pos hhere]
        constructor
        · rintro ⟨⟩
          exact ⟨hhere, fun m hm => absurd hm (Nat.not_lt_zero m)⟩
        · rintro ⟨_, hfirst⟩
          cases n with
          | zero => rfl
          | succ n => exact absurd hhere (hfirst 0 (Nat.zero_lt_succ n))
      · rw [if_neg hhere]
        cases n with
        | zero => simp [hhere]
        | succ n =>
            simp only [Option.map_eq_some_iff, Nat.add_right_cancel_iff, exists_eq_right, ih,
              List.drop_succ_cons]
            constructor
            · rintro ⟨hfound, hfirst⟩
              refine ⟨hfound, ?_⟩
              intro m hm
              cases m with
              | zero => exact hhere
              | succ m => exact hfirst m (Nat.lt_of_succ_lt_succ hm)
            · rintro ⟨hfound, hfirst⟩
              exact ⟨hfound, fun m hm => hfirst (m + 1) (Nat.succ_lt_succ hm)⟩

theorem offsetOf?_eq_none_iff {pattern s : Bytes} (hpattern : pattern ≠ []) :
    offsetOf? pattern s = none ↔ ¬ pattern <:+: s := by
  induction s with
  | nil => simp [offsetOf?_nil, hpattern]
  | cons b rest ih =>
      rw [offsetOf?_cons hpattern, List.infix_cons_iff]
      by_cases hhere : pattern <+: b :: rest <;> simp [hhere, ih]

end TopicBridge.Bytes
