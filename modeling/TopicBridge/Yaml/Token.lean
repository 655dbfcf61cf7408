import TopicBridge.Text.Integer
import TopicBridge.Yaml.Style

/-! The tokens of a document text. Indentation becomes tokens too: a collection of indented lines
begins with a token of its own and ends with `blockEnd`. That an entry of a mapping has begun often
shows at its colon only, so the tokens that say so are put in behind the fact. -/
namespace TopicBridge.Yaml

inductive Token where
  | version (major minor : Nat)
  | tagHandle (handle expansion : String)
  | documentStart
  | documentEnd
  | blockSequence
  | blockMapping
  | blockEnd
  | bracket
  | bracketEnd
  | brace
  | braceEnd
  | item
  | comma
  | key
  | value
  | alias (name : String)
  | anchor (name : String)
  | tag (handle suffix : String)
  | scalar (text : String) (plain : Bool)
  deriving DecidableEq, Repr

namespace Token

/-- The characters of a tag other than those of a name. -/
def isTagChar (verbatim : Bool) (c : Char) : Bool :=
  isNameChar c || ";/?:@&=+$.!~*'()".contains c || (verbatim && ",[]".contains c)

def octets? (octet : Nat) : Option Nat :=
  if octet < 0x80 then some 1
  else if octet < 0xC0 then none
  else if octet < 0xE0 then some 2
  else if octet < 0xF0 then some 3
  else if octet < 0xF8 then some 4
  else none

def octet? : List Char → Option (Nat × List Char)
  | '%' :: a :: b :: rest => do
      let a ← Hex.value? a
      let b ← Hex.value? b
      return (a * 16 + b, rest)
  | _ => none

/-- Further octets of a character, each with six bits of its code. -/
def moreOctets? : Nat → (code : Nat) → List Char → Option (Nat × List Char)
  | 0, code, rest => some (code, rest)
  | n + 1, code, rest => do
      let (octet, rest) ← octet? rest
      if octet / 0x40 = 2 then moreOctets? n (code * 0x40 + octet % 0x40) rest else none

/-- A character written as octets behind percent signs. -/
def escaped? (chars : List Char) : Option (Char × List Char) := do
  let (first, rest) ← octet? chars
  let count ← octets? first
  let lead := match count with
    | 1 => first
    | 2 => first % 0x20
    | 3 => first % 0x10
    | _ => first % 0x08
  let (code, rest) ← moreOctets? (count - 1) lead rest
  return (Char.ofNat code, rest)

def tagText? (verbatim : Bool) : Nat → List Char → Option (List Char × List Char)
  | 0, _ => none
  | _ + 1, [] => some ([], [])
  | fuel + 1, c :: rest =>
      if c == '%' then do
        let (c, rest) ← escaped? (c :: rest)
        let (text, rest) ← tagText? verbatim fuel rest
        return (c :: text, rest)
      else if isTagChar verbatim c then
        (tagText? verbatim fuel rest).map fun (text, rest) => (c :: text, rest)
      else some ([], c :: rest)

/-- A handle: an exclamation mark, or a name between two of them. Without the second mark the name
is the beginning of something else. Says whether the handle is complete. -/
def handle? : List Char → Option (List Char × Bool × List Char)
  | '!' :: rest =>
      let name := rest.takeWhile isNameChar
      match rest.dropWhile isNameChar with
      | '!' :: rest => some ('!' :: name ++ ['!'], true, rest)
      | rest => some ('!' :: name, false, rest)
  | _ => none

/-- A tag: verbatim between angle brackets, behind a handle, or behind a single mark. -/
def tag? (chars : List Char) : Option (Token × List Char) := do
  match chars with
  | '!' :: '<' :: rest =>
      let (text, rest) ← tagText? true (rest.length + 1) rest
      match text, rest with
      | [], _ => none
      | text, '>' :: rest => return (.tag "" (String.ofList text), rest)
      | _, _ => none
  | chars =>
      let (handle, complete, rest) ← handle? chars
      let (text, rest) ← tagText? false (rest.length + 1) rest
      if complete then
        if text.isEmpty then none
        else return (.tag (String.ofList handle) (String.ofList text), rest)
      else
        match handle.drop 1 ++ text with
        | [] => return (.tag "" "!", rest)
        | text => return (.tag "!" (String.ofList text), rest)

/-- The number of a version: one to nine digits. -/
def versionNumber? (chars : List Char) : Option (Nat × List Char) :=
  let digits := chars.takeWhile Char.isDigit
  if 1 ≤ digits.length ∧ digits.length ≤ 9 then
    (Text.natural? digits).map fun n => (n, chars.dropWhile Char.isDigit)
  else none

/-- A directive behind its percent sign: the version, or a handle for tags. -/
def directive? (chars : List Char) : Option (Token × List Char) := do
  let name := chars.takeWhile isNameChar
  let rest := chars.dropWhile isNameChar
  if name.isEmpty || !endsWord rest.head? then none
  let rest := rest.dropWhile isBlank
  if name == "YAML".toList then
    let (major, rest) ← versionNumber? rest
    match rest with
    | '.' :: rest =>
        let (minor, rest) ← versionNumber? rest
        return (.version major minor, rest)
    | _ => none
  else if name == "TAG".toList then
    let (handle, complete, rest) ← handle? rest
    if !complete && handle.length ≠ 1 then none
    if !rest.head?.any isBlank then none
    let rest := rest.dropWhile isBlank
    let (text, rest) ← tagText? true (rest.length + 1) rest
    if text.isEmpty || !endsWord rest.head? then none
    return (.tagHandle (String.ofList handle) (String.ofList text), rest)
  else none

/-- The name of an anchor behind its indicator. Some indicators may follow without a blank. -/
def anchorName? (chars : List Char) : Option (String × List Char) :=
  let name := chars.takeWhile isNameChar
  let rest := chars.dropWhile isNameChar
  if name.isEmpty then none
  else if endsWord rest.head? || rest.head?.any ("?:,]\x7d%@`".contains ·) then
    some (String.ofList name, rest)
  else none

end Token

/-- A place where a key may have begun: the number of its first token, where that stands, and
whether it is where the next entry has to begin. -/
structure KeyPlace where
  index : Nat
  line : Nat
  column : Nat
  required : Bool

/-- The tokens so far, and what the next one depends on: the columns of the open collections,
innermost first, and where a key may have begun, here and outside each open bracket. -/
structure Tokens where
  cursor : Cursor
  done : List Token := []
  columns : List Nat := []
  keyPlace : Option KeyPlace := none
  outside : List (Option KeyPlace) := []
  keyAllowed : Bool := true

namespace Tokens

def bracketed (tokens : Tokens) : Bool := !tokens.outside.isEmpty

/-- The least column at which a line goes on with the innermost collection. -/
def floor (tokens : Tokens) : Nat := (tokens.columns.head?.map (· + 1)).getD 0

/-- Appends a token that ends at `cursor`. The tokens are kept last first. -/
def push (tokens : Tokens) (token : Token) (cursor : Cursor) : Tokens :=
  { tokens with cursor, done := token :: tokens.done }

/-- Puts a token in before the one with the given number. -/
def putIn (tokens : Tokens) (index : Nat) (token : Token) : Tokens :=
  let later := tokens.done.length - index
  { tokens with done := tokens.done.take later ++ token :: tokens.done.drop later }

def openAt (tokens : Tokens) (column index : Nat) (token : Token) : Tokens :=
  if !tokens.bracketed && tokens.floor ≤ column then
    { tokens.putIn index token with columns := column :: tokens.columns }
  else tokens

def closeTo (tokens : Tokens) (column : Option Nat) : Tokens :=
  if tokens.bracketed then tokens
  else
    let deeper := tokens.columns.takeWhile fun inner => column.all (· < inner)
    { tokens with
      done := deeper.map (fun _ => Token.blockEnd) ++ tokens.done
      columns := tokens.columns.drop deeper.length }

/-- Gives up the key that may have begun. A required one cannot be given up. -/
def dropKey? (tokens : Tokens) : Option Tokens :=
  if tokens.keyPlace.any (·.required) then none else some { tokens with keyPlace := none }

def noteKey? (tokens : Tokens) : Option Tokens :=
  if tokens.keyAllowed then
    let required := !tokens.bracketed && tokens.columns.head? == some tokens.cursor.column
    tokens.dropKey?.map fun tokens =>
      { tokens with
        keyPlace := some ⟨tokens.done.length, tokens.cursor.line, tokens.cursor.column, required⟩ }
  else some tokens

/-- A key is on one line and not longer than 1024 characters. -/
def KeyPlace.expired (place : KeyPlace) (cursor : Cursor) : Bool :=
  place.line < cursor.line || place.column + 1024 < cursor.column

def dropExpired? (tokens : Tokens) : Option Tokens :=
  let check (place : Option KeyPlace) : Option (Option KeyPlace) :=
    match place with
    | none => some none
    | some place =>
        if KeyPlace.expired place tokens.cursor then
          if place.required then none else some none
        else some (some place)
  do
    let keyPlace ← check tokens.keyPlace
    let outside ← tokens.outside.mapM check
    return { tokens with keyPlace, outside }

/-- A directive, or the start or end of a document. It closes every collection. -/
def boundary? (tokens : Tokens) (token : Token) (cursor : Cursor) : Option Tokens := do
  let tokens ← (tokens.closeTo none).dropKey?
  return { tokens.push token cursor with keyAllowed := false }

/-- An opening bracket. It may be the beginning of a key. -/
def openBracket? (tokens : Tokens) (token : Token) : Option Tokens := do
  let tokens ← tokens.noteKey?
  return { tokens.push token (tokens.cursor.skip 1) with
    keyPlace := none
    outside := tokens.keyPlace :: tokens.outside
    keyAllowed := true }

/-- A closing bracket. What stood before the opening one may still be a key. -/
def closeBracket? (tokens : Tokens) (token : Token) : Option Tokens := do
  let tokens ← tokens.dropKey?
  let tokens := { tokens.push token (tokens.cursor.skip 1) with keyAllowed := false }
  match tokens.outside with
  | place :: outside => return { tokens with keyPlace := place, outside }
  | [] => return tokens

def comma? (tokens : Tokens) : Option Tokens := do
  let tokens ← tokens.dropKey?
  return { tokens.push .comma (tokens.cursor.skip 1) with keyAllowed := true }

/-- Opens a collection for an indicator that stands here, where a line allows one. -/
def openHere? (tokens : Tokens) (token : Token) : Option Tokens :=
  if tokens.bracketed then some tokens
  else if tokens.keyAllowed then
    some (tokens.openAt tokens.cursor.column tokens.done.length token)
  else none

def item? (tokens : Tokens) : Option Tokens := do
  let tokens ← tokens.openHere? .blockSequence
  let tokens ← tokens.dropKey?
  return { tokens.push .item (tokens.cursor.skip 1) with keyAllowed := true }

def key? (tokens : Tokens) : Option Tokens := do
  let tokens ← tokens.openHere? .blockMapping
  let tokens ← tokens.dropKey?
  return { tokens.push .key (tokens.cursor.skip 1) with keyAllowed := !tokens.bracketed }

/-- A colon before a value. Where a key may have begun, it did. -/
def value? (tokens : Tokens) : Option Tokens :=
  match tokens.keyPlace with
  | some place =>
      let tokens := (tokens.putIn place.index .key).openAt place.column place.index .blockMapping
      some { tokens.push .value (tokens.cursor.skip 1) with keyPlace := none, keyAllowed := false }
  | none => do
      let tokens ← tokens.openHere? .blockMapping
      return { tokens.push .value (tokens.cursor.skip 1) with keyAllowed := !tokens.bracketed }

/-- A token that may be the beginning of a key, and behind which none may begin. -/
def word? (tokens : Tokens) (token : Token) (cursor : Cursor) : Option Tokens := do
  let tokens ← tokens.noteKey?
  return { tokens.push token cursor with keyAllowed := false }

def directive? (tokens : Tokens) : Option Tokens := do
  let (token, rest) ← Token.directive? (tokens.cursor.rest.drop 1)
  tokens.boundary? token (← (tokens.cursor.upTo rest).endLine?)

def anchor? (tokens : Tokens) (token : String → Token) : Option Tokens := do
  let (name, rest) ← Token.anchorName? (tokens.cursor.rest.drop 1)
  tokens.word? (token name) (tokens.cursor.upTo rest)

def tag? (tokens : Tokens) : Option Tokens := do
  let (token, rest) ← Token.tag? tokens.cursor.rest
  if endsWord rest.head? || (tokens.bracketed && rest.head? == some ',') then
    tokens.word? token (tokens.cursor.upTo rest)
  else none

def block? (tokens : Tokens) (folds : Bool) : Option Tokens := do
  let (text, cursor) ← (tokens.cursor.skip 1).block? folds tokens.floor
  let tokens ← tokens.dropKey?
  return { tokens.push (.scalar (String.ofList text) false) cursor with keyAllowed := true }

def quoted? (tokens : Tokens) (quote : Char) : Option Tokens := do
  let (text, cursor) ← (tokens.cursor.skip 1).quoted? quote
  tokens.word? (.scalar (String.ofList text) false) cursor

def plain? (tokens : Tokens) : Option Tokens := do
  let (text, onNewLine, cursor) ← tokens.cursor.plain? tokens.bracketed tokens.floor
  let tokens ← tokens.word? (.scalar (String.ofList text) true) cursor
  return { tokens with keyAllowed := onNewLine }

def startsPlain (bracketed : Bool) (c : Char) (next : Option Char) : Bool :=
  if c == '-' then !next.any isBlank
  else if c == '?' || c == ':' then !bracketed && !endsWord next
  else !endsWord (some c) && !",[]\x7b\x7d#&*!|>'\"%@`".contains c

/-- One token behind the space before it, or none at the end of the text. -/
def step? (tokens : Tokens) : Option (Option Tokens) := do
  let (keyAllowed, cursor) := Cursor.passSpace tokens.bracketed tokens.cursor.rest
    tokens.cursor.line tokens.cursor.column tokens.keyAllowed false
  let tokens ← { tokens with cursor, keyAllowed }.dropExpired?
  let tokens := tokens.closeTo (some cursor.column)
  match cursor.rest with
  | [] => return none
  | c :: rest =>
      let next := rest.head?
      let indicator := tokens.bracketed || endsWord next
      if c == '%' && cursor.column == 0 then tokens.directive?
      else if cursor.startsLine '-' then tokens.boundary? .documentStart (cursor.skip 3)
      else if cursor.startsLine '.' then tokens.boundary? .documentEnd (cursor.skip 3)
      else if c == '[' then tokens.openBracket? .bracket
      else if c == '{' then tokens.openBracket? .brace
      else if c == ']' then tokens.closeBracket? .bracketEnd
      else if c == '}' then tokens.closeBracket? .braceEnd
      else if c == ',' then tokens.comma?
      else if c == '-' && endsWord next then tokens.item?
      else if c == '?' && indicator then tokens.key?
      else if c == ':' && indicator then tokens.value?
      else if c == '*' then tokens.anchor? .alias
      else if c == '&' then tokens.anchor? .anchor
      else if c == '!' then tokens.tag?
      else if c == '|' && !tokens.bracketed then tokens.block? false
      else if c == '>' && !tokens.bracketed then tokens.block? true
      else if c == '\'' || c == '"' then tokens.quoted? c
      else if startsPlain tokens.bracketed c next then tokens.plain?
      else none

def run? : Nat → Tokens → Option (List Token)
  | 0, _ => none
  | fuel + 1, tokens => do
      match ← tokens.step? with
      | some tokens => run? fuel tokens
      | none =>
          let tokens ← (tokens.closeTo none).dropKey?
          return tokens.done.reverse

end Tokens

/-- The tokens of a text. Every token but those of indentation uses up a character, so the fuel
lasts. -/
def tokens? (text : String) : Option (List Token) := do
  let cursor ← Cursor.start? text
  Tokens.run? (cursor.rest.length + 1) { cursor }

end TopicBridge.Yaml
