import TopicBridge.Proofs.Acceptance
import TopicBridge.Proofs.Stretches

/-! Reading by positions in the whole message. Every stretch, every octet and every difference is
checked here, and there is no outcome where one does not exist. Wherever it starts in a message,
such a scan has an outcome, the same as the reader that holds what is left of the message. -/
namespace TopicBridge.Cdr
variable {α β : Type} {data : Bytes}

abbrev Scan (α : Type) := Nat → ExceptT Fault Option (α × Nat)

/-- The difference of two numbers, if it is not below zero. -/
def less? (a b : Nat) : Option Nat := if b ≤ a then some (a - b) else none

def scanTake (data : Bytes) (what : String) (n : Nat) : Scan Bytes := fun position =>
  if position + n ≤ data.length then do
    let octets ← data.stretch? position (position + n)
    pure (octets, position + n)
  else throw (.truncated what position n (data.length - position))

def scanWord (data : Bytes) (what : String) : Scan Nat := fun position => do
  let padding ← less? 4 (position % 4)
  let (_, position) ← scanTake data what (padding % 4) position
  let (octets, position) ← scanTake data what 4 position
  let a ← (octets[0]? : Option UInt8)
  let b ← (octets[1]? : Option UInt8)
  let c ← (octets[2]? : Option UInt8)
  let d ← (octets[3]? : Option UInt8)
  pure (ofOctets [a, b, c, d], position)

def scanCount (data : Bytes) (what : String) (least : Nat) : Scan Nat := fun position => do
  let (count, position) ← scanWord data what position
  let left ← less? data.length position
  if left < count * least then throw (.impossibleCount what count left)
  else pure (count, position)

def scanBody (data : Bytes) (what : String) (length : Nat) : Scan String := fun position =>
  if length = 0 then pure ("", position)
  else do
    let (octets, position) ← scanTake data what length position
    let size ← less? length 1
    let text ← octets.stretch? 0 size
    let final ← octets.stretch? size octets.length
    if final ≠ [0] then throw (.unterminated what)
    else
      match utf8? text with
      | some s => pure (s, position)
      | none => throw (.notUtf8 what)

def scanText (data : Bytes) (what : String) : Scan String := fun position => do
  let (length, position) ← scanWord data what position
  scanBody data what length position

def scanTexts (data : Bytes) (what : String) : Nat → Scan (List String)
  | 0 => fun position => pure ([], position)
  | n + 1 => fun position => do
      let (first, position) ← scanText data what position
      let (rest, position) ← scanTexts data what n position
      pure (first :: rest, position)

def scanTextSequence (data : Bytes) (what : String) : Scan (List String) := fun position => do
  let (count, position) ← scanCount data what 4 position
  scanTexts data what count position

def scanOctetSequence (data : Bytes) (what : String) : Scan Bytes := fun position => do
  let (count, position) ← scanCount data what 1 position
  scanTake data what count position

/-- The same fault, or the same value and the same place in the message. -/
inductive Agree (data : Bytes) : ExceptT Fault Option (α × Nat) → Except Fault (α × Cursor) → Prop
  | fault (fault : Fault) : Agree data (throw fault) (.error fault)
  | value (a : α) {position : Nat} : position ≤ data.length →
      Agree data (pure (a, position)) (.ok (a, ⟨position, data.drop position⟩))

theorem Agree.bind {scan : ExceptT Fault Option (α × Nat)} {read : Except Fault (α × Cursor)}
    {more : α × Nat → ExceptT Fault Option (β × Nat)}
    {more' : α × Cursor → Except Fault (β × Cursor)}
    (h : Agree data scan read)
    (hmore : ∀ a position, position ≤ data.length → read = .ok (a, ⟨position, data.drop position⟩) →
      Agree data (more (a, position)) (more' (a, ⟨position, data.drop position⟩))) :
    Agree data (scan >>= more) (read >>= more') := by
  cases h with
  | fault fault => exact .fault fault
  | value a hposition => exact hmore a _ hposition rfl

/-- From every place in the message on. -/
def Tracks (data : Bytes) (scan : Scan α) (parse : Parse α) : Prop :=
  ∀ position ≤ data.length, Agree data (scan position) (parse ⟨position, data.drop position⟩)

theorem Tracks.andThen {scan : Scan α} {parse : Parse α} {more : α → Scan β}
    {more' : α → Parse β} (h : Tracks data scan parse)
    (hmore : ∀ a, Tracks data (more a) (more' a)) :
    Tracks data (fun position => do
      let (a, position) ← scan position
      more a position) (parse.andThen more') := by
  intro position hposition
  refine (h position hposition).bind ?_
  intro a behind hbehind _
  exact hmore a behind hbehind

theorem tracks_pure (a : α) :
    Tracks data (fun position => pure (a, position)) (fun cursor => .ok (a, cursor)) := by
  intro position hposition
  exact .value a hposition

theorem less?_of_le {a b : Nat} (h : b ≤ a) : less? a b = some (a - b) :=
  if_pos h

theorem bind_some (a : α) (more : α → ExceptT Fault Option β) :
    (liftM (some a) : ExceptT Fault Option α) >>= more = more a := rfl

theorem tracks_take (what : String) (n : Nat) :
    Tracks data (scanTake data what n) (take what n) := by
  intro position hposition
  have hleft : (data.drop position).length = data.length - position := List.length_drop
  unfold scanTake take
  by_cases hn : position + n ≤ data.length
  · have hstretch := Bytes.stretch?_of_le (Nat.le_add_right position n) hn
    rw [if_pos hn, if_pos (by rw [hleft]; omega), hstretch, List.drop_drop, List.drop_take,
      Nat.add_sub_cancel_left]
    exact .value _ hn
  · rw [if_neg hn, if_neg (by rw [hleft]; omega), hleft]
    exact .fault _

theorem tracks_readWord (what : String) :
    Tracks data (scanWord data what) (readWord what) := by
  intro position hposition
  have hmod : position % 4 ≤ 4 := Nat.le_of_lt (Nat.mod_lt _ (by decide))
  unfold scanWord readWord
  rw [less?_of_le hmod]
  refine (tracks_take what (gap position) position hposition).bind ?_
  intro _ behind hbehind _
  refine (tracks_take what 4 behind hbehind).bind ?_
  intro octets next hnext htake
  obtain ⟨_, ⟨_, hlength⟩, _⟩ := (accepts_take what 4 _ _ _).mp htake
  obtain ⟨a, b, c, d, rfl⟩ := exists_four hlength
  exact .value _ hnext

theorem tracks_readCount (what : String) (least : Nat) :
    Tracks data (scanCount data what least) (readCount what least) := by
  intro position hposition
  unfold scanCount readCount
  refine (tracks_readWord what position hposition).bind ?_
  intro count next hnext _
  dsimp only
  rw [less?_of_le hnext, List.length_drop]
  change Agree data (if _ then _ else _) (if _ then _ else _)
  split
  · exact .fault _
  · exact .value _ hnext

theorem stretches_concat (front : Bytes) (b : UInt8) :
    Bytes.stretch? (front ++ [b]) 0 front.length = some front ∧
      Bytes.stretch? (front ++ [b]) front.length (front ++ [b]).length = some [b] := by
  have hle : front.length ≤ (front ++ [b]).length := by
    rw [List.length_append]
    exact Nat.le_add_right _ _
  rw [Bytes.stretch?_zero hle, Bytes.stretch?_of_le hle (Nat.le_refl _), List.take_left,
    List.take_length, List.drop_left]
  exact ⟨rfl, rfl⟩

theorem tracks_readBody (what : String) (length : Nat) :
    Tracks data (scanBody data what length) (readBody what length) := by
  intro position hposition
  unfold scanBody readBody
  by_cases hlength : length = 0
  · rw [if_pos hlength, if_pos hlength]
    exact .value _ hposition
  · rw [if_neg hlength, if_neg hlength]
    refine (tracks_take what length position hposition).bind ?_
    intro octets next hnext htake
    obtain ⟨_, ⟨_, rfl⟩, _⟩ := (accepts_take what length _ _ _).mp htake
    have hnonempty : octets ≠ [] := fun hnil => hlength (congrArg List.length hnil)
    obtain ⟨front, b, rfl⟩ : ∃ front b, octets = front ++ [b] :=
      ⟨_, _, (List.dropLast_concat_getLast hnonempty).symm⟩
    obtain ⟨hfront, hfinal⟩ := stretches_concat front b
    have hsize : less? (front ++ [b]).length 1 = some front.length := by
      rw [List.length_append]
      exact less?_of_le (Nat.le_add_left _ _)
    dsimp only
    rw [hsize, bind_some, hfront, bind_some, hfinal, bind_some, List.getLast?_concat,
      List.dropLast_concat]
    by_cases hb : b = 0
    · subst hb
      rw [if_neg (fun h => h rfl), if_neg (fun h => h rfl)]
      cases utf8? front with
      | some s => exact .value _ hnext
      | none => exact .fault _
    · rw [if_pos (by simpa using hb), if_pos (by simpa using hb)]
      exact .fault _

theorem tracks_readText (what : String) :
    Tracks data (scanText data what) (readText what) :=
  (tracks_readWord what).andThen (tracks_readBody what)

theorem tracks_readTexts (what : String) (n : Nat) :
    Tracks data (scanTexts data what n) (readTexts what n) := by
  induction n with
  | zero => exact tracks_pure []
  | succ n ih =>
      exact (tracks_readText what).andThen fun first => ih.andThen fun rest =>
        tracks_pure (first :: rest)

theorem tracks_readTextSequence (what : String) :
    Tracks data (scanTextSequence data what) (readTextSequence what) :=
  (tracks_readCount what 4).andThen (tracks_readTexts what)

theorem tracks_readOctetSequence (what : String) :
    Tracks data (scanOctetSequence data what) (readOctetSequence what) :=
  (tracks_readCount what 1).andThen (tracks_take what)

end TopicBridge.Cdr
