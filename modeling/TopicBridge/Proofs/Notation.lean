import TopicBridge.Json.Value
import TopicBridge.Output

/-! Objects read back from what is written. A quoted text gives its characters again whatever
they are, and a number is passed over whole. So the members of an object are found in order. -/
namespace TopicBridge.Json
variable {s rest : List Char}

/-- Puts a unit in front of those read from the rest. -/
def prepend (unit : TextUnit) (found : List TextUnit × List Char) : List TextUnit × List Char :=
  (unit :: found.1, found.2)

theorem textUnits_simple {letter c : Char} (h : simpleEscape? letter = some c)
    (hcode : letter ≠ 'u') (behind : List Char) :
    textUnits ('\\' :: letter :: behind) = (textUnits behind).map (prepend (.char c)) := by
  cases hbehind : textUnits behind with
  | none => simp [textUnits, hcode, h, hbehind]
  | some found => simp [textUnits, hcode, h, hbehind, prepend]

theorem textUnits_code {n : Nat} (h : n < 32) (behind : List Char) :
    textUnits ('\\' :: 'u' :: (hexDigits n ++ behind)) =
      (textUnits behind).map (prepend (.code n)) := by
  have hall : ∀ i : Fin 32, code? (Nat.digitChar (i / 4096 % 16)) (Nat.digitChar (i / 256 % 16))
      (Nat.digitChar (i / 16 % 16)) (Nat.digitChar (i % 16)) = some i.val := by decide
  have hn := hall ⟨n, h⟩
  simp only at hn
  cases hbehind : textUnits behind with
  | none => simp [textUnits, hexDigits, hn, hbehind]
  | some found => simp [textUnits, hexDigits, hn, hbehind, prepend]

theorem textUnits_plain {c : Char} (hquote : c ≠ '"') (hslash : c ≠ '\\') (h : 32 ≤ c.toNat)
    (behind : List Char) :
    textUnits (c :: behind) = (textUnits behind).map (prepend (.char c)) := by
  have hplain : ¬ (c.toNat < 32 ∨ c = '\\') := by
    simp [hslash, h]
  rw [textUnits, if_neg hplain]
  · rfl
  · exact hquote
  · intro _ _ _ _ _ hc
    exact absurd hc hslash
  · intro _ _ hc
    exact absurd hc hslash

theorem characters_char {c : Char} {units : List TextUnit} (h : characters units = some s) :
    characters (.char c :: units) = some (c :: s) := by
  simp [characters, h]

/-- A code below those of the surrogates stands for itself. -/
theorem characters_code {n : Nat} {units : List TextUnit} (h : n < 0xD800)
    (hunits : characters units = some s) :
    characters (.code n :: units) = some (Char.ofNat n :: s) := by
  have hhigh : ¬ (0xD800 ≤ n ∧ n < 0xDC00) := by omega
  have hlow : ¬ (0xDC00 ≤ n ∧ n < 0xE000) := by omega
  have hnone : ¬ (0xD800 ≤ n ∧ n < 0xE000) := by omega
  have hfirst : characters (.code n :: units) = (characters units).map (Char.ofNat n :: ·) := by
    cases units with
    | nil => simp [characters, hnone]
    | cons unit units =>
        cases unit with
        | char c => simp [characters, hnone]
        | code low => simp [characters, hhigh, hlow]
  rw [hfirst, hunits, Option.map_some]

/-- What is written for a character is read as one unit that stands for it. -/
theorem exists_unit (c : Char) (behind : List Char) :
    ∃ unit, textUnits (escaped c ++ behind) = (textUnits behind).map (prepend unit) ∧
      ∀ {units s}, characters units = some s → characters (unit :: units) = some (c :: s) := by
  have hsimple : ∀ letter, simpleEscape? letter = some c → letter ≠ 'u' →
      ∃ unit, textUnits (['\\', letter] ++ behind) = (textUnits behind).map (prepend unit) ∧
        ∀ {units s}, characters units = some s → characters (unit :: units) = some (c :: s) :=
    fun letter h hcode => ⟨.char c, textUnits_simple h hcode behind, characters_char⟩
  have hchar : ∀ n, c.toNat = n → c = Char.ofNat n := by
    rintro _ rfl
    exact (Char.ofNat_toNat c).symm
  unfold escaped
  split
  · next h => exact hsimple '"' (by rw [h]; rfl) (by decide)
  split
  · next h => exact hsimple '\\' (by rw [h]; rfl) (by decide)
  split
  · next h => exact hsimple 'b' (by rw [hchar 8 h]; rfl) (by decide)
  split
  · next h => exact hsimple 't' (by rw [hchar 9 h]; rfl) (by decide)
  split
  · next h => exact hsimple 'n' (by rw [hchar 10 h]; rfl) (by decide)
  split
  · next h => exact hsimple 'f' (by rw [hchar 12 h]; rfl) (by decide)
  split
  · next h => exact hsimple 'r' (by rw [hchar 13 h]; rfl) (by decide)
  split
  · next h =>
      refine ⟨.code c.toNat, textUnits_code h behind, fun hunits => ?_⟩
      have hcode := characters_code (n := c.toNat) (by omega) hunits
      rwa [Char.ofNat_toNat] at hcode
  · next hquote hslash _ _ _ _ _ h =>
      exact ⟨.char c, textUnits_plain hquote hslash (Nat.le_of_not_lt h) behind, characters_char⟩

theorem text_quoted (s rest : List Char) :
    text (s.flatMap escaped ++ '"' :: rest) = some (some (String.ofList s), rest) := by
  have hunits : ∃ units, textUnits (s.flatMap escaped ++ '"' :: rest) = some (units, rest) ∧
      characters units = some s := by
    induction s with
    | nil => exact ⟨[], rfl, rfl⟩
    | cons c s ih =>
        obtain ⟨units, hread, hunits⟩ := ih
        obtain ⟨unit, hunit, hstands⟩ := exists_unit c (s.flatMap escaped ++ '"' :: rest)
        refine ⟨unit :: units, ?_, hstands hunits⟩
        rw [List.flatMap_cons, List.append_assoc, hunit, hread]
        rfl
  obtain ⟨units, hread, hunits⟩ := hunits
  simp [text, hread, hunits]

/-- What may follow a value inside an object. -/
def Ends (rest : List Char) : Prop := ∃ more, rest = ',' :: more ∨ rest = '}' :: more

theorem mem_of_isDigit {c : Char} (h : isDigit c = true) :
    c ∈ ['0', '1', '2', '3', '4', '5', '6', '7', '8', '9'] := by
  have hall : ∀ i : Fin 128, isDigit (Char.ofNat i) = true →
      Char.ofNat i ∈ ['0', '1', '2', '3', '4', '5', '6', '7', '8', '9'] := by decide +kernel
  have hle : c.toNat ≤ '9'.toNat := by
    simp only [isDigit, Bool.and_eq_true, decide_eq_true_eq] at h
    exact h.2
  have hlt : c.toNat < 128 := Nat.lt_of_le_of_lt hle (by decide)
  have hc := hall ⟨c.toNat, hlt⟩
  simp only [Char.ofNat_toNat] at hc
  exact hc h

theorem value_of_isDigit {c : Char} (h : isDigit c = true) (fuel : Nat) (rest : List Char) :
    value (fuel + 1) (c :: rest) =
      (unsignedNumeral (c :: rest)).map fun rest => (.number, rest) := by
  have hc := mem_of_isDigit h
  simp only [List.mem_cons, List.not_mem_nil, or_false] at hc
  rcases hc with rfl | rfl | rfl | rfl | rfl | rfl | rfl | rfl | rfl | rfl <;> rfl

theorem isDigit_of_mem_toDigits {n : Nat} {c : Char} (h : c ∈ Nat.toDigits 10 n) :
    isDigit c = true := by
  have hc : c.isDigit = true := Nat.isDigit_of_mem_toDigits (by decide) (by decide) h
  exact hc

/-- A number above zero does not begin with a zero. -/
theorem head?_toDigits {n : Nat} (h : 0 < n) : (Nat.toDigits 10 n).head? ≠ some '0' := by
  induction n using Nat.strongRecOn with
  | _ n ih =>
      rw [Nat.toDigits_eq_if (by decide)]
      split
      · next hlt =>
          have hall : ∀ i : Fin 10, 0 < i.val → [Nat.digitChar i].head? ≠ some '0' := by decide
          exact hall ⟨n, hlt⟩ h
      · next hge =>
          have hhead := ih (n / 10) (by omega) (by omega)
          cases hdigits : Nat.toDigits 10 (n / 10) with
          | nil => exact absurd hdigits Nat.toDigits_ne_nil
          | cons c more => rwa [hdigits] at hhead

theorem digits_append {c : Char} (h : ∀ d ∈ c :: s, isDigit d = true) (hrest : Ends rest) :
    digits (c :: s ++ rest) = some rest := by
  rw [List.forall_mem_cons] at h
  have hend : rest.dropWhile isDigit = rest := by
    obtain ⟨more, rfl | rfl⟩ := hrest <;> rfl
  rw [List.cons_append, digits, if_pos h.1, List.dropWhile_append_of_pos h.2, hend]

/-- Behind the digits of a number that ends stands neither a fraction nor an exponent. -/
theorem unsignedNumeral_toDigits (n : Nat) (hrest : Ends rest) :
    unsignedNumeral (Nat.toDigits 10 n ++ rest) = some rest := by
  have hwhole : some rest >>= fraction >>= exponent = some rest := by
    obtain ⟨more, rfl | rfl⟩ := hrest <;> rfl
  rcases Nat.eq_zero_or_pos n with rfl | hpos
  · obtain ⟨more, rfl | rfl⟩ := hrest <;> rfl
  · have hhead := head?_toDigits hpos
    have hall := fun d => isDigit_of_mem_toDigits (n := n) (c := d)
    cases hdigits : Nat.toDigits 10 n with
    | nil => exact absurd hdigits Nat.toDigits_ne_nil
    | cons c more =>
        rw [hdigits] at hhead hall
        have hc : c ≠ '0' := fun heq => hhead (by rw [heq]; rfl)
        have hdrop := digits_append hall hrest
        rw [List.cons_append] at hdrop ⊢
        rw [← hwhole, ← hdrop]
        simp [unsignedNumeral, hc]

/-- A text that is read as a value wherever a value may end inside an object. -/
def Reads (s : List Char) (json : Json) : Prop :=
  ∀ fuel rest, Ends rest → value (fuel + 1) (s ++ rest) = some (json, rest)

theorem reads_quoted (s : List Char) : Reads (quoted s) (.string (some (String.ofList s))) := by
  intro fuel rest _
  have hvalue : value (fuel + 1) ('"' :: (s.flatMap escaped ++ '"' :: rest)) =
      (text (s.flatMap escaped ++ '"' :: rest)).map fun found => (.string found.1, found.2) := rfl
  rw [text_quoted] at hvalue
  simpa [quoted] using hvalue

theorem reads_toDigits (n : Nat) : Reads (Nat.toDigits 10 n) .number := by
  intro fuel rest hrest
  have hread := unsignedNumeral_toDigits n hrest
  have hall := fun d => isDigit_of_mem_toDigits (n := n) (c := d)
  cases hdigits : Nat.toDigits 10 n with
  | nil => exact absurd hdigits Nat.toDigits_ne_nil
  | cons c more =>
      rw [hdigits] at hread hall
      rw [List.cons_append] at hread ⊢
      rw [value_of_isDigit (hall c List.mem_cons_self), hread, Option.map_some]

/-- A member of an object, and how its value is spelled. -/
structure Member where
  name : String
  spelling : String
  json : Json
  reads : Reads spelling.toList json

namespace Member

def written (m : Member) : List Char := quoted m.name.toList ++ ':' :: m.spelling.toList

def parsed (m : Member) : Option String × Json := (some m.name, m.json)

theorem written_append (m : Member) (rest : List Char) :
    m.written ++ rest =
      '"' :: (m.name.toList.flatMap escaped ++ '"' :: ':' :: (m.spelling.toList ++ rest)) := by
  simp [written, quoted]

theorem text_name (m : Member) (rest : List Char) :
    text (m.name.toList.flatMap escaped ++ '"' :: rest) = some (some m.name, rest) := by
  rw [text_quoted, String.ofList_toList]

theorem members_comma (m : Member) (fuel : Nat) (rest : List Char) :
    members (fuel + 2) (m.written ++ ',' :: rest) =
      (members (fuel + 1) rest).map fun found => (m.parsed :: found.1, found.2) := by
  have hvalue := m.reads fuel (',' :: rest) ⟨rest, .inl rfl⟩
  rw [written_append, members]
  cases hmore : members (fuel + 1) rest with
  | none => simp [skipSpace, isSpace, text_name, hvalue, hmore]
  | some found => simp [skipSpace, isSpace, text_name, hvalue, hmore, parsed]

theorem members_brace (m : Member) (fuel : Nat) (rest : List Char) :
    members (fuel + 2) (m.written ++ '}' :: rest) = some ([m.parsed], rest) := by
  have hvalue := m.reads fuel ('}' :: rest) ⟨rest, .inr rfl⟩
  rw [written_append, members]
  simp [skipSpace, isSpace, text_name, hvalue, parsed]

theorem members_intercalate (m : Member) (more : List Member) (fuel : Nat) (rest : List Char) :
    members (more.length + fuel + 2)
        ([','].intercalate ((m :: more).map written) ++ '}' :: rest) =
      some ((m :: more).map parsed, rest) := by
  induction more generalizing m with
  | nil =>
      have hfuel : ([] : List Member).length + fuel + 2 = fuel + 2 := by simp
      rw [hfuel, List.map_singleton, List.intercalate_singleton, members_brace]
      rfl
  | cons next more ih =>
      have hfuel : (next :: more).length + fuel + 2 = more.length + fuel + 1 + 2 := by
        rw [List.length_cons]
        omega
      have hnext := ih next
      rw [List.map_cons] at hnext
      rw [hfuel, List.map_cons, List.map_cons, List.intercalate_cons_cons, List.append_assoc,
        List.append_assoc, List.singleton_append, members_comma, hnext]
      rfl

end Member

theorem toList_object (entries : List Member) :
    (Output.object (entries.map fun m => (m.name, m.spelling))).toList =
      '{' :: ([','].intercalate (entries.map Member.written) ++ ['}']) := by
  have hwritten : Member.written =
      fun m => quoted m.name.toList ++ ':' :: m.spelling.toList := rfl
  simp [Output.object, String.toList_intercalate, hwritten, quote, Function.comp_def]

/-- There is a character to read for every comma. -/
theorem length_le_intercalate (first : List Char) (more : List (List Char)) :
    more.length ≤ ([','].intercalate (first :: more)).length := by
  induction more generalizing first with
  | nil => exact Nat.zero_le _
  | cons next more ih =>
      have hnext := ih next
      simp only [List.intercalate_cons_cons, List.length_append, List.length_cons, List.length_nil]
      omega

/-- An object with members does not close at once. -/
theorem value_brace (m : Member) (more : List Member) (fuel : Nat) (rest : List Char) :
    value (fuel + 1)
        ('{' :: ([','].intercalate ((m :: more).map Member.written) ++ '}' :: rest)) =
      (members fuel ([','].intercalate ((m :: more).map Member.written) ++ '}' :: rest)).map
        fun found => (.object found.1, found.2) := by
  have hquote : ∃ behind, [','].intercalate ((m :: more).map Member.written) ++ '}' :: rest =
      '"' :: behind := by
    cases more with
    | nil =>
        rw [List.map_singleton, List.intercalate_singleton, Member.written_append]
        exact ⟨_, rfl⟩
    | cons next more =>
        rw [List.map_cons, List.map_cons, List.intercalate_cons_cons, List.append_assoc,
          List.append_assoc, Member.written_append]
        exact ⟨_, rfl⟩
  obtain ⟨behind, hquote⟩ := hquote
  rw [hquote]
  rfl

theorem parse?_object (entries : List Member) :
    parse? (Output.object (entries.map fun m => (m.name, m.spelling))).toList =
      some (.object (entries.map Member.parsed)) := by
  rw [toList_object]
  cases entries with
  | nil => rfl
  | cons m more =>
      have hlength := length_le_intercalate m.written (more.map Member.written)
      rw [List.length_map, ← List.map_cons] at hlength
      have hmembers := fun fuel => Member.members_intercalate m more fuel []
      have hvalue := fun fuel => value_brace m more fuel []
      generalize [','].intercalate ((m :: more).map Member.written) = body at *
      obtain ⟨fuel, hfuel⟩ : ∃ fuel, 2 * ('{' :: (body ++ ['}'])).length + 2 =
          more.length + fuel + 2 + 1 := by
        refine ⟨2 * body.length + 3 - more.length, ?_⟩
        simp only [List.length_cons, List.length_append, List.length_nil]
        omega
      rw [parse?, hfuel, hvalue, hmembers]
      rfl

end TopicBridge.Json
