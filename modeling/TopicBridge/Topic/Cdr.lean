import TopicBridge.Bytes

/-! Little-endian common data representation without an encapsulation header: words of four
octets aligned from the start of the message, text with its length and a final zero, and
sequences with their count. Reading is bounded by the octets that are left. -/
namespace TopicBridge.Cdr

/-- Low octet first. -/
def wordOctets (value : UInt32) : Bytes :=
  [value.toUInt8, (value >>> 8).toUInt8, (value >>> 16).toUInt8, (value >>> 24).toUInt8]

/-- The distance from a position to the next multiple of four. -/
def gap (position : Nat) : Nat := (4 - position % 4) % 4

/-- A word at a position, behind its padding. -/
def word (position value : Nat) : Bytes :=
  List.replicate (gap position) 0 ++ wordOctets (UInt32.ofNat value)

/-- The length counts the final zero. -/
def text (position : Nat) (s : String) : Bytes :=
  word position (s.utf8ByteSize + 1) ++ s.toUTF8.toList ++ [0]

def texts (position : Nat) : List String → Bytes
  | [] => []
  | s :: rest =>
      let first := text position s
      first ++ texts (position + first.length) rest

def textSequence (position : Nat) (items : List String) : Bytes :=
  let count := word position items.length
  count ++ texts (position + count.length) items

def octetSequence (position : Nat) (items : Bytes) : Bytes :=
  word position items.length ++ items

/-- Why a message cannot be read. `what` names the field. -/
inductive Fault where
  | truncated (what : String) (offset need left : Nat)
  | impossibleCount (what : String) (count left : Nat)
  | unterminated (what : String)
  | notUtf8 (what : String)
  deriving DecidableEq, Repr

def Fault.message : Fault → String
  | .truncated what offset need left =>
      s!"truncated {what} at offset {offset} (need {need} bytes, {left} left)"
  | .impossibleCount what count left =>
      s!"{what} claims {count} entries but only {left} bytes remain"
  | .unterminated what => s!"{what} entry is not NUL terminated"
  | .notUtf8 what => s!"{what} entry is not UTF-8"

structure Cursor where
  position : Nat
  rest : Bytes
  deriving DecidableEq, Repr

abbrev Parse (α : Type) := Cursor → Except Fault (α × Cursor)

def take (what : String) (n : Nat) : Parse Bytes := fun cursor =>
  if n ≤ cursor.rest.length then
    .ok (cursor.rest.take n, ⟨cursor.position + n, cursor.rest.drop n⟩)
  else .error (.truncated what cursor.position n cursor.rest.length)

/-- The word with the given octets, low octet first. -/
def ofOctets : Bytes → Nat
  | [] => 0
  | b :: rest => b.toNat + 256 * ofOctets rest

/-- The next word, behind its padding, which may hold anything. -/
def readWord (what : String) : Parse Nat := fun cursor => do
  let (_, cursor) ← take what (gap cursor.position) cursor
  let (octets, cursor) ← take what 4 cursor
  .ok (ofOctets octets, cursor)

/-- A count of items of at least `least` octets each, bounded by the octets that are left. -/
def readCount (what : String) (least : Nat) : Parse Nat := fun cursor => do
  let (count, cursor) ← readWord what cursor
  if cursor.rest.length < count * least then
    .error (.impossibleCount what count cursor.rest.length)
  else .ok (count, cursor)

def utf8? (data : Bytes) : Option String := String.fromUTF8? data.toByteArray

/-- Text of length zero lacks even its final zero and is empty. -/
def readText (what : String) : Parse String := fun cursor => do
  let (length, cursor) ← readWord what cursor
  if length = 0 then .ok ("", cursor)
  else
    let (octets, cursor) ← take what length cursor
    if octets.getLast? ≠ some 0 then .error (.unterminated what)
    else
      match utf8? octets.dropLast with
      | some s => .ok (s, cursor)
      | none => .error (.notUtf8 what)

def readTexts (what : String) : Nat → Parse (List String)
  | 0 => fun cursor => .ok ([], cursor)
  | n + 1 => fun cursor => do
      let (first, cursor) ← readText what cursor
      let (rest, cursor) ← readTexts what n cursor
      .ok (first :: rest, cursor)

def readTextSequence (what : String) : Parse (List String) := fun cursor => do
  let (count, cursor) ← readCount what 4 cursor
  readTexts what count cursor

def readOctetSequence (what : String) : Parse Bytes := fun cursor => do
  let (count, cursor) ← readCount what 1 cursor
  take what count cursor

end TopicBridge.Cdr
