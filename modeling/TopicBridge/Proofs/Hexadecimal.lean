import TopicBridge.Proofs.Trimming
import TopicBridge.Text.Hex

/-! Octets read from pairs of characters. What is read is exactly white space around pairs of
hexadecimal digits, except that a pair may begin with a plus sign, which stands for a high half of
zero. A text without that sign is read exactly if digits alone spell the octets. -/
namespace TopicBridge.Hex
variable {c first second : Char} {n : Nat} {b : UInt8} {s : List Char} {data : Bytes}

/-- The sixteen digits, each at the place of its value. -/
def lowercase : List Char := "0123456789abcdef".toList
def uppercase : List Char := "0123456789ABCDEF".toList

/-- A digit of that value, in either case. -/
def Denotes (c : Char) (n : Nat) : Prop := lowercase[n]? = some c ∨ uppercase[n]? = some c

instance : Decidable (Denotes c n) := inferInstanceAs (Decidable (_ ∨ _))

/-- What the reader takes for the high half of an octet: a digit, or a plus sign for zero. -/
def Leads (c : Char) (n : Nat) : Prop := Denotes c n ∨ c = '+' ∧ n = 0

/-- Two characters for each octet: one that stands for the high half in the given sense, then a
digit for the low half. -/
inductive Pairs (leads : Char → Nat → Prop) : List Char → Bytes → Prop
  | nil : Pairs leads [] []
  | cons {first second : Char} {high low : Nat} {rest : List Char} {more : Bytes} :
      leads first high → Denotes second low → Pairs leads rest more →
      Pairs leads (first :: second :: rest) (UInt8.ofNat (high * 16 + low) :: more)

/-- Digits only, two for each octet, with white space around them. -/
def SpelledBy (text : String) (data : Bytes) : Prop :=
  ∃ digits, Text.BetweenBlanks digits text.toList ∧ Pairs Denotes digits data ∧
    digits.length = 2 * data.length

theorem Denotes.lt (h : Denotes c n) : n < 16 := by
  rcases h with h | h
  · exact (List.getElem?_eq_some_iff.mp h).1
  · exact (List.getElem?_eq_some_iff.mp h).1

theorem toNat_lt_of_value? (h : value? c = some n) : c.toNat < 128 := by
  have hbound : ∀ {high : Char}, high.toNat < 128 → c ≤ high → c.toNat < 128 := by
    intro high hhigh hle
    exact Nat.lt_of_le_of_lt hle hhigh
  unfold value? at h
  split at h
  · next hdigit => exact hbound (by decide) hdigit.2
  · split at h
    · next hlower => exact hbound (by decide) hlower.2
    · split at h
      · next hupper => exact hbound (by decide) hupper.2
      · cases h

theorem value?_eq_some_iff : value? c = some n ↔ Denotes c n := by
  constructor
  · intro h
    have hall : ∀ i : Fin 128, ∀ k ∈ value? (Char.ofNat i), Denotes (Char.ofNat i) k := by
      decide +kernel
    have hc := hall ⟨c.toNat, toNat_lt_of_value? h⟩ n
    simp only [Char.ofNat_toNat] at hc
    exact hc h
  · intro h
    have hall : ∀ i : Fin 16,
        value? lowercase[i] = some i.val ∧ value? uppercase[i] = some i.val := by decide
    have hn := hall ⟨n, h.lt⟩
    rcases h with h | h
    · obtain ⟨_, rfl⟩ := List.getElem?_eq_some_iff.mp h
      exact hn.1
    · obtain ⟨_, rfl⟩ := List.getElem?_eq_some_iff.mp h
      exact hn.2

theorem not_denotes_plus : ¬ Denotes '+' n := by
  intro h
  cases value?_eq_some_iff.mpr h

theorem octet?_eq_some_iff :
    octet? first second = some b ↔
      ∃ high low, Leads first high ∧ Denotes second low ∧ b = UInt8.ofNat (high * 16 + low) := by
  by_cases hfirst : first = '+'
  · simp [octet?, Leads, hfirst, not_denotes_plus, Option.bind_eq_some_iff, value?_eq_some_iff,
      @eq_comm _ b]
  · simp only [octet?, Leads, hfirst, if_false, false_and, or_false, bind,
      Option.bind_eq_some_iff, value?_eq_some_iff, Option.some.injEq]
    constructor
    · rintro ⟨low, hlow, high, hhigh, rfl⟩
      exact ⟨high, low, hhigh, hlow, rfl⟩
    · rintro ⟨high, low, hhigh, hlow, rfl⟩
      exact ⟨low, hlow, high, hhigh, rfl⟩

theorem ofChars?_eq_some_iff : ofChars? s = some data ↔ Pairs Leads s data := by
  constructor
  · intro h
    induction s using ofChars?.induct generalizing data with
    | case1 =>
        cases h
        exact .nil
    | case2 c => cases h
    | case3 first second rest ih =>
        obtain ⟨b, hb, h⟩ := Option.bind_eq_some_iff.mp h
        obtain ⟨more, hmore, h⟩ := Option.bind_eq_some_iff.mp h
        obtain ⟨high, low, hfirst, hsecond, rfl⟩ := octet?_eq_some_iff.mp hb
        cases h
        exact .cons hfirst hsecond (ih hmore)
  · intro h
    induction h with
    | nil => rfl
    | cons hfirst hsecond _ ih =>
        have hoctet := octet?_eq_some_iff.mpr ⟨_, _, hfirst, hsecond, rfl⟩
        simp [ofChars?, hoctet, ih]

theorem Pairs.length_eq (h : Pairs leads s data) : s.length = 2 * data.length := by
  induction h with
  | nil => rfl
  | cons _ _ _ ih =>
      simp only [List.length_cons]
      omega

/-- The two readings of a first character differ for the plus sign only. -/
theorem Pairs.of_not_mem (h : Pairs Leads s data) (hplus : '+' ∉ s) : Pairs Denotes s data := by
  induction h with
  | nil => exact .nil
  | cons hfirst hsecond _ ih =>
      simp only [List.mem_cons, not_or] at hplus
      refine .cons ?_ hsecond (ih hplus.2.2)
      exact hfirst.resolve_right fun hsign => hplus.1 hsign.1.symm

theorem Pairs.plus_not_mem (h : Pairs Denotes s data) : '+' ∉ s := by
  induction h with
  | nil => exact List.not_mem_nil
  | cons hfirst hsecond _ ih =>
      simp only [List.mem_cons, not_or]
      refine ⟨?_, ?_, ih⟩
      · rintro rfl
        exact not_denotes_plus hfirst
      · rintro rfl
        exact not_denotes_plus hsecond

theorem Pairs.leads (h : Pairs Denotes s data) : Pairs Leads s data := by
  induction h with
  | nil => exact .nil
  | cons hfirst hsecond _ ih => exact .cons (.inl hfirst) hsecond ih

theorem Denotes.isBlank_eq (h : Denotes c n) : Text.isBlank c = false := by
  have hall : ∀ i : Fin 16,
      Text.isBlank lowercase[i] = false ∧ Text.isBlank uppercase[i] = false := by decide
  have hn := hall ⟨n, h.lt⟩
  rcases h with h | h
  · obtain ⟨_, rfl⟩ := List.getElem?_eq_some_iff.mp h
    exact hn.1
  · obtain ⟨_, rfl⟩ := List.getElem?_eq_some_iff.mp h
    exact hn.2

theorem Pairs.solid (h : Pairs Leads s data) : Text.Solid s := by
  induction h with
  | nil => exact List.forall_mem_nil _
  | cons hfirst hsecond _ ih =>
      refine List.forall_mem_cons.mpr ⟨?_, List.forall_mem_cons.mpr ⟨hsecond.isBlank_eq, ih⟩⟩
      rcases hfirst with hfirst | ⟨rfl, -⟩
      · exact hfirst.isBlank_eq
      · decide

theorem denotes_digit (h : n < 16) : Denotes (digit n) n := by
  have hall : ∀ i : Fin 16, Denotes (digit i) i := by decide
  exact hall ⟨n, h⟩

theorem pairs_chars (data : Bytes) : Pairs Denotes (chars data) data := by
  induction data with
  | nil => exact .nil
  | cons b rest ih =>
      have hb := b.toNat_lt
      have hpair := Pairs.cons (denotes_digit (n := b.toNat / 16) (by omega))
        (denotes_digit (n := b.toNat % 16) (by omega)) ih
      rw [Nat.div_add_mod', UInt8.ofNat_toNat] at hpair
      exact hpair

theorem parse?_eq_some_iff {text : String} :
    parse? text = some data ↔
      ∃ digits, Text.BetweenBlanks digits text.toList ∧ Pairs Leads digits data := by
  rw [parse?, ofChars?_eq_some_iff]
  constructor
  · intro h
    exact ⟨_, Text.betweenBlanks_trim _, h⟩
  · rintro ⟨digits, hdigits, h⟩
    rwa [Text.trim_of_betweenBlanks hdigits h.solid]

@[simp] theorem parse?_render (data : Bytes) : parse? (render data) = some data := by
  refine parse?_eq_some_iff.mpr ⟨chars data, ⟨[], [], ?_, ?_, ?_⟩, (pairs_chars data).leads⟩
  · exact List.forall_mem_nil _
  · exact List.forall_mem_nil _
  · simp [render]

theorem SpelledBy.read {text : String} (h : SpelledBy text data) : parse? text = some data := by
  obtain ⟨digits, hdigits, hpairs, -⟩ := h
  exact parse?_eq_some_iff.mpr ⟨digits, hdigits, hpairs.leads⟩

theorem SpelledBy.plus_not_mem {text : String} (h : SpelledBy text data) : '+' ∉ text.toList := by
  obtain ⟨digits, ⟨before, after, hbefore, hafter, htext⟩, hpairs, -⟩ := h
  rw [htext, List.mem_append, List.mem_append]
  rintro ((hmem | hmem) | hmem)
  · exact absurd (hbefore '+' hmem) (by decide)
  · exact hpairs.plus_not_mem hmem
  · exact absurd (hafter '+' hmem) (by decide)

theorem spelledBy_of_read {text : String} (h : parse? text = some data)
    (hplus : '+' ∉ text.toList) : SpelledBy text data := by
  obtain ⟨digits, hdigits, hpairs⟩ := parse?_eq_some_iff.mp h
  obtain ⟨before, after, -, -, htext⟩ := id hdigits
  have hclean : '+' ∉ digits := by
    intro hmem
    exact hplus (htext ▸ List.mem_append_left _ (List.mem_append_right _ hmem))
  exact ⟨digits, hdigits, hpairs.of_not_mem hclean, hpairs.length_eq⟩

/-- A text is read if and only if it is pairs with white space around them, where a plus sign may
stand for the first digit of a pair. So digits decide what is read, except for a text that is read
in spite of a plus sign in it. What is written is read back. -/
theorem parse?_reads_pairs (text : String) (data : Bytes) :
    (parse? text = some data ↔
        ∃ digits, Text.BetweenBlanks digits text.toList ∧ Pairs Leads digits data) ∧
      ((parse? text = some data ↔ SpelledBy text data) ↔
        ¬ (parse? text = some data ∧ '+' ∈ text.toList)) ∧
      parse? (render data) = some data := by
  refine ⟨parse?_eq_some_iff, ⟨?_, ?_⟩, parse?_render data⟩
  · rintro hsame ⟨hread, hplus⟩
    exact (hsame.mp hread).plus_not_mem hplus
  · intro hplus
    refine ⟨fun hread => spelledBy_of_read hread fun hmem => hplus ⟨hread, hmem⟩, fun h => h.read⟩

/-- A pair with a plus sign is read although it is no two digits. -/
theorem not_only_digits_read :
    ¬ ∀ (text : String) (data : Bytes), parse? text = some data ↔ SpelledBy text data := by
  intro hclaim
  have hread : parse? "+5" = some [5] := by decide
  have hspelled := (hclaim "+5" [5]).mp hread
  exact hspelled.plus_not_mem (by decide)

end TopicBridge.Hex
