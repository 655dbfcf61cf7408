import TopicBridge.Proofs.Layout

/-! Which octets each reader of a message takes for which value. A reader accepts a form if it
reads just the octets of that form and stops right behind them; the forms of readers that follow
one another are put together the same way. The bound on a count of items rejects nothing that
could be read without it. -/
namespace TopicBridge.Cdr
variable {α β : Type}

def Parse.andThen (first : Parse α) (more : α → Parse β) : Parse β := fun cursor => do
  let (a, cursor) ← first cursor
  more a cursor

abbrev Form (α : Type) := Nat → α → Bytes → Prop

def Form.andThen (first : Form α) (more : α → Form β) : Form β := fun position b octets =>
  ∃ a front back, first position a front ∧ more a (position + front.length) b back ∧
    octets = front ++ back

/-- The reader succeeds with a value if and only if octets of the form come next. -/
def Accepts (parse : Parse α) (form : Form α) : Prop :=
  ∀ (cursor : Cursor) (a : α) (next : Cursor), parse cursor = .ok (a, next) ↔
    ∃ octets, form cursor.position a octets ∧ cursor.rest = octets ++ next.rest ∧
      next.position = cursor.position + octets.length

theorem andThen_eq_ok {first : Parse α} {more : α → Parse β} {cursor : Cursor}
    {result : β × Cursor} :
    first.andThen more cursor = .ok result ↔
      ∃ a next, first cursor = .ok (a, next) ∧ more a next = .ok result := by
  unfold Parse.andThen
  cases hfirst : first cursor with
  | error fault =>
      constructor
      · rintro ⟨⟩
      · rintro ⟨a, next, ⟨⟩, _⟩
  | ok read =>
      obtain ⟨a, next⟩ := read
      constructor
      · intro h
        exact ⟨a, next, rfl, h⟩
      · rintro ⟨_, _, ⟨⟩, h⟩
        exact h

theorem Accepts.andThen {first : Parse α} {more : α → Parse β} {form : Form α}
    {forms : α → Form β} (hfirst : Accepts first form) (hmore : ∀ a, Accepts (more a) (forms a)) :
    Accepts (first.andThen more) (form.andThen forms) := by
  intro cursor b next
  rw [andThen_eq_ok]
  constructor
  · rintro ⟨a, between, ha, hb⟩
    obtain ⟨front, hfront, hrest, hposition⟩ := (hfirst _ _ _).mp ha
    obtain ⟨back, hback, hrest', hposition'⟩ := (hmore a _ _ _).mp hb
    refine ⟨front ++ back, ⟨a, front, back, hfront, hposition ▸ hback, rfl⟩, ?_, ?_⟩
    · rw [hrest, hrest', List.append_assoc]
    · rw [hposition', hposition, List.length_append, Nat.add_assoc]
  · rintro ⟨_, ⟨a, front, back, hfront, hback, rfl⟩, hrest, hposition⟩
    refine ⟨a, ⟨cursor.position + front.length, back ++ next.rest⟩, ?_, ?_⟩
    · exact (hfirst _ _ _).mpr ⟨front, hfront, by rw [hrest, List.append_assoc], rfl⟩
    · refine (hmore a _ _ _).mpr ⟨back, hback, rfl, ?_⟩
      rw [hposition, List.length_append, Nat.add_assoc]

/-- A form has any other description that holds of the same octets. -/
theorem Accepts.of_iff {parse : Parse α} {form form' : Form α} (h : Accepts parse form)
    (hform : ∀ position a octets, form' position a octets ↔ form position a octets) :
    Accepts parse form' := by
  intro cursor a next
  simp only [h cursor a next, hform]

theorem Accepts.of_success {parse parse' : Parse α} {form : Form α} (h : Accepts parse form)
    (hparse : ∀ cursor result, parse' cursor = .ok result ↔ parse cursor = .ok result) :
    Accepts parse' form := by
  intro cursor a next
  rw [hparse, h cursor a next]

/-- Octets of a form that is read tell where they end, and which value they stand for. -/
theorem Accepts.unique {parse : Parse α} {form : Form α} (h : Accepts parse form)
    {position : Nat} {a a' : α} {octets octets' rest rest' : Bytes}
    (hform : form position a octets) (hform' : form position a' octets')
    (hsame : octets ++ rest = octets' ++ rest') : a = a' ∧ octets = octets' := by
  have hread : parse ⟨position, octets ++ rest⟩ = .ok (a, ⟨position + octets.length, rest⟩) :=
    (h _ _ _).mpr ⟨octets, hform, rfl, rfl⟩
  have hread' : parse ⟨position, octets ++ rest⟩ = .ok (a', ⟨position + octets'.length, rest'⟩) :=
    (h _ _ _).mpr ⟨octets', hform', hsame, rfl⟩
  rw [hread, Except.ok.injEq, Prod.mk.injEq, Cursor.mk.injEq] at hread'
  obtain ⟨rfl, _, rfl⟩ := hread'
  exact ⟨rfl, List.append_cancel_right hsame⟩

theorem accepts_ok (a : α) :
    Accepts (fun cursor => .ok (a, cursor)) fun _ b octets => b = a ∧ octets = [] := by
  intro cursor b next
  constructor
  · rintro ⟨⟩
    exact ⟨[], ⟨rfl, rfl⟩, rfl, rfl⟩
  · rintro ⟨_, ⟨rfl, rfl⟩, hrest, hposition⟩
    obtain ⟨position, rest⟩ := cursor
    obtain ⟨position', rest'⟩ := next
    cases hrest
    cases hposition
    rfl

theorem accepts_take (what : String) (n : Nat) :
    Accepts (take what n) fun _ taken octets => octets = taken ∧ taken.length = n := by
  intro cursor taken next
  unfold take
  split
  · rename_i hn
    constructor
    · rintro ⟨⟩
      have hlength := List.length_take_of_le hn
      exact ⟨_, ⟨rfl, hlength⟩, (List.take_append_drop _ _).symm, by rw [hlength]⟩
    · rintro ⟨_, ⟨rfl, rfl⟩, hrest, hposition⟩
      rw [hrest, List.take_left, List.drop_left, ← hposition]
  · rename_i hn
    constructor
    · rintro ⟨⟩
    · rintro ⟨_, ⟨rfl, rfl⟩, hrest, _⟩
      rw [hrest, List.length_append] at hn
      exact absurd (Nat.le_add_right _ _) hn

theorem exists_four {octets : Bytes} (h : octets.length = 4) : ∃ a b c d, octets = [a, b, c, d] :=
  match octets, h with
  | [a, b, c, d], _ => ⟨a, b, c, d, rfl⟩

theorem accepts_readWord (what : String) : Accepts (readWord what) WordAt := by
  intro cursor value next
  have hsteps := ((accepts_take what (gap cursor.position)).andThen fun _ =>
    (accepts_take what 4).andThen fun octets => accepts_ok (ofOctets octets)) cursor value next
  refine hsteps.trans (exists_congr fun octets => and_congr_left fun _ => ?_)
  constructor
  · rintro ⟨_, padding, _, ⟨rfl, hpadding⟩, ⟨_, word, _, ⟨rfl, hword⟩, ⟨rfl, rfl⟩, rfl⟩, rfl⟩
    obtain ⟨hless, haligned⟩ := gap_eq_iff.mp hpadding.symm
    obtain ⟨a, b, c, d, rfl⟩ := exists_four hword
    have hvalue := WordAt.behind a b c d hless haligned
    have hoctets : ofOctets [a, b, c, d] =
        a.toNat + 0x100 * b.toNat + 0x10000 * c.toNat + 0x1000000 * d.toNat := by
      simp only [ofOctets]
      omega
    rw [hoctets, List.append_nil]
    exact hvalue
  · intro h
    cases h with
    | @behind padding a b c d hless haligned =>
        refine ⟨padding, padding, [a, b, c, d], ⟨rfl, ?_⟩, ⟨[a, b, c, d], _, [], ⟨rfl, rfl⟩,
          ⟨?_, rfl⟩, rfl⟩, rfl⟩
        · exact (gap_eq_iff.mpr ⟨hless, haligned⟩).symm
        · simp only [ofOctets]
          omega

def readBody (what : String) (length : Nat) : Parse String := fun cursor =>
  if length = 0 then .ok ("", cursor)
  else do
    let (octets, cursor) ← take what length cursor
    if octets.getLast? ≠ some 0 then .error (.unterminated what)
    else
      match utf8? octets.dropLast with
      | some s => .ok (s, cursor)
      | none => .error (.notUtf8 what)

theorem readText_eq (what : String) : readText what = (readWord what).andThen (readBody what) :=
  rfl

theorem eq_append_zero_iff {octets text : Bytes} :
    octets = text ++ [0] ↔ octets.getLast? = some 0 ∧ octets.dropLast = text := by
  constructor
  · rintro rfl
    exact ⟨List.getLast?_concat, List.dropLast_concat⟩
  · rintro ⟨hlast, rfl⟩
    obtain ⟨front, rfl⟩ := List.getLast?_eq_some_iff.mp hlast
    rw [List.dropLast_concat]

theorem readBody_eq_ok {what : String} {length : Nat} (hlength : length ≠ 0) {cursor next : Cursor}
    {s : String} :
    readBody what length cursor = .ok (s, next) ↔
      take what length cursor = .ok (s.toUTF8.toList ++ [0], next) := by
  unfold readBody
  rw [if_neg hlength]
  cases htake : take what length cursor with
  | error fault =>
      constructor
      · rintro ⟨⟩
      · rintro ⟨⟩
  | ok taken =>
      obtain ⟨octets, behind⟩ := taken
      rw [Except.ok.injEq, Prod.mk.injEq, eq_append_zero_iff]
      change (if _ then _ else _) = _ ↔ _
      split
      · rename_i hlast
        constructor
        · rintro ⟨⟩
        · rintro ⟨⟨hlast', _⟩, _⟩
          exact absurd hlast' hlast
      · rename_i hlast
        rw [← utf8?_eq_some_iff]
        split
        · rename_i t ht
          rw [ht, Except.ok.injEq, Prod.mk.injEq, Option.some.injEq, Classical.not_not.mp hlast]
          simp only [true_and]
        · rename_i hnone
          rw [hnone]
          constructor
          · rintro ⟨⟩
          · rintro ⟨⟨_, ⟨⟩⟩, _⟩

theorem accepts_readBody (what : String) (length : Nat) :
    Accepts (readBody what length) fun _ s octets =>
      (length = 0 ∧ s = "" ∧ octets = []) ∨
        (length = s.utf8ByteSize + 1 ∧ octets = s.toUTF8.toList ++ [0]) := by
  intro cursor s next
  by_cases hlength : length = 0
  · subst hlength
    have hempty : readBody what 0 cursor = .ok ("", cursor) := rfl
    rw [hempty, accepts_ok "" cursor s next]
    refine exists_congr fun octets => and_congr_left fun _ => ?_
    constructor
    · rintro ⟨hs, hoctets⟩
      exact .inl ⟨rfl, hs, hoctets⟩
    · rintro (⟨_, hs, hoctets⟩ | ⟨hsize, _⟩)
      · exact ⟨hs, hoctets⟩
      · cases hsize
  · rw [readBody_eq_ok hlength, accepts_take what length]
    refine exists_congr fun octets => and_congr_left fun _ => ?_
    have htext : (s.toUTF8.toList ++ [0]).length = s.utf8ByteSize + 1 := by
      rw [List.length_append, length_toUTF8, List.length_singleton]
    simp only [htext]
    constructor
    · rintro ⟨hoctets, hsize⟩
      exact .inr ⟨hsize.symm, hoctets⟩
    · rintro (⟨hzero, _⟩ | ⟨hsize, hoctets⟩)
      · exact absurd hzero hlength
      · exact ⟨hoctets, hsize.symm⟩

theorem accepts_readText (what : String) : Accepts (readText what) TextAt := by
  rw [readText_eq]
  refine ((accepts_readWord what).andThen (accepts_readBody what)).of_iff ?_
  intro position s octets
  constructor
  · intro h
    cases h with
    | bare hword =>
        exact ⟨0, octets, [], hword, .inl ⟨rfl, rfl, rfl⟩, (List.append_nil _).symm⟩
    | closed hword => exact ⟨_, _, _, hword, .inr ⟨rfl, rfl⟩, rfl⟩
  · rintro ⟨_, length, _, hword, ⟨rfl, rfl, rfl⟩ | ⟨rfl, rfl⟩, rfl⟩
    · rw [List.append_nil]
      exact .bare hword
    · exact .closed hword

theorem readTexts_succ (what : String) (n : Nat) :
    readTexts what (n + 1) = (readText what).andThen fun first =>
      (readTexts what n).andThen fun rest cursor => .ok (first :: rest, cursor) := rfl

theorem accepts_readTexts (what : String) (n : Nat) :
    Accepts (readTexts what n) fun position items octets =>
      items.length = n ∧ TextsAt position items octets := by
  induction n with
  | zero =>
      refine (accepts_ok []).of_iff ?_
      intro position items octets
      rw [List.length_eq_zero_iff]
      constructor
      · rintro ⟨rfl, ⟨⟩⟩
        exact ⟨rfl, rfl⟩
      · rintro ⟨rfl, rfl⟩
        exact ⟨rfl, .nil⟩
  | succ n ih =>
      rw [readTexts_succ]
      refine ((accepts_readText what).andThen fun first =>
        ih.andThen fun rest => accepts_ok (first :: rest)).of_iff ?_
      intro position items octets
      constructor
      · rintro ⟨hlength, h⟩
        cases h with
        | nil => cases hlength
        | @cons _ s rest front back hfirst hrest =>
            exact ⟨s, front, back, hfirst, ⟨rest, back, [], ⟨Nat.succ.inj hlength, hrest⟩,
              ⟨rfl, rfl⟩, (List.append_nil _).symm⟩, rfl⟩
      · rintro ⟨s, front, _, hfirst, ⟨rest, back, _, ⟨hlength, hrest⟩, ⟨rfl, rfl⟩, rfl⟩, rfl⟩
        rw [List.append_nil]
        exact ⟨congrArg Nat.succ hlength, .cons hfirst hrest⟩

theorem readCount_eq_ok {what : String} {least count : Nat} {cursor next : Cursor} :
    readCount what least cursor = .ok (count, next) ↔
      readWord what cursor = .ok (count, next) ∧ count * least ≤ next.rest.length := by
  unfold readCount
  cases hword : readWord what cursor with
  | error fault =>
      constructor
      · rintro ⟨⟩
      · rintro ⟨⟨⟩, _⟩
  | ok read =>
      obtain ⟨value, behind⟩ := read
      change (if _ then _ else _) = _ ↔ _
      split
      · rename_i hless
        constructor
        · rintro ⟨⟩
        · rintro ⟨⟨⟩, hle⟩
          exact absurd hless (Nat.not_lt_of_le hle)
      · rename_i hless
        constructor
        · rintro ⟨⟩
          exact ⟨rfl, Nat.le_of_not_lt hless⟩
        · rintro ⟨⟨⟩, _⟩
          rfl

/-- Items of at least `least` octets each are read behind a bounded count if they are read behind
any. -/
theorem bounded_iff {what : String} {least : Nat} {items : Nat → Parse α} {form : Nat → Form α}
    (hitems : ∀ count, Accepts (items count) (form count))
    (hleast : ∀ count position a octets, form count position a octets →
      count * least ≤ octets.length) (cursor : Cursor) (result : α × Cursor) :
    (readCount what least).andThen items cursor = .ok result ↔
      (readWord what).andThen items cursor = .ok result := by
  rw [andThen_eq_ok, andThen_eq_ok]
  refine exists_congr fun count => exists_congr fun next => and_congr_left ?_
  intro hread
  rw [readCount_eq_ok]
  refine and_iff_left_of_imp fun _ => ?_
  obtain ⟨octets, hform, hrest, _⟩ := (hitems count next result.1 result.2).mp hread
  rw [hrest, List.length_append]
  exact Nat.le_add_right_of_le (hleast _ _ _ _ hform)

/-- Texts one by one, as many as the word before them says. -/
def readCountedTexts (what : String) : Parse (List String) :=
  (readWord what).andThen (readTexts what)

def readCountedOctets (what : String) : Parse Bytes := (readWord what).andThen (take what)

theorem accepts_readCountedTexts (what : String) :
    Accepts (readCountedTexts what) TextSequenceAt := by
  refine ((accepts_readWord what).andThen (accepts_readTexts what)).of_iff ?_
  intro position items octets
  constructor
  · intro h
    cases h with
    | counted hcount hitems => exact ⟨_, _, _, hcount, ⟨rfl, hitems⟩, rfl⟩
  · rintro ⟨_, count, back, hcount, ⟨rfl, hitems⟩, rfl⟩
    exact .counted hcount hitems

theorem accepts_readCountedOctets (what : String) :
    Accepts (readCountedOctets what) OctetSequenceAt := by
  refine ((accepts_readWord what).andThen (accepts_take what)).of_iff ?_
  intro position items octets
  constructor
  · intro h
    cases h with
    | counted hcount => exact ⟨_, _, _, hcount, ⟨rfl, rfl⟩, rfl⟩
  · rintro ⟨_, count, _, hcount, ⟨rfl, rfl⟩, rfl⟩
    exact .counted hcount

theorem accepts_readTextSequence (what : String) :
    Accepts (readTextSequence what) TextSequenceAt := by
  refine (accepts_readCountedTexts what).of_success
    (bounded_iff (accepts_readTexts what) ?_)
  rintro count position items octets ⟨rfl, hitems⟩
  exact Nat.le_of_add_right_le hitems.least

theorem accepts_readOctetSequence (what : String) :
    Accepts (readOctetSequence what) OctetSequenceAt := by
  refine (accepts_readCountedOctets what).of_success (bounded_iff (accepts_take what) ?_)
  rintro count position items octets ⟨rfl, rfl⟩
  exact Nat.le_of_eq (Nat.mul_one _)

end TopicBridge.Cdr
