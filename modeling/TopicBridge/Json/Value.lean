import TopicBridge.Text.Hex

/-! Values in object notation and how to read them. Numbers and other parts that no caller looks
into are checked for their form only. Text with half of a surrogate pair has a form but no
characters. -/
namespace TopicBridge

inductive Json where
  | null
  | bool (value : Bool)
  | number
  | string (text : Option String)
  | array (items : List Json)
  | object (members : List (Option String × Json))

namespace Json

def isSpace (c : Char) : Bool := c == ' ' || c == '\n' || c == '\r' || c == '\t'

def skipSpace (s : List Char) : List Char := s.dropWhile isSpace

def isDigit (c : Char) : Bool := '0' ≤ c && c ≤ '9'

def code? (a b c d : Char) : Option Nat := do
  let a ← Hex.value? a
  let b ← Hex.value? b
  let c ← Hex.value? c
  let d ← Hex.value? d
  return ((a * 16 + b) * 16 + c) * 16 + d

def simpleEscape? : Char → Option Char
  | '"' => some '"'
  | '\\' => some '\\'
  | '/' => some '/'
  | 'b' => some (Char.ofNat 8)
  | 'f' => some (Char.ofNat 12)
  | 'n' => some '\n'
  | 'r' => some '\r'
  | 't' => some '\t'
  | _ => none

/-- One unit of a text: a character, or a code of sixteen bits. -/
inductive TextUnit where
  | char (c : Char)
  | code (n : Nat)
  deriving DecidableEq, Repr

/-- The units up to the closing quote, and what follows it. -/
def textUnits : List Char → Option (List TextUnit × List Char)
  | [] => none
  | '"' :: rest => some ([], rest)
  | '\\' :: 'u' :: a :: b :: c :: d :: rest => do
      let n ← code? a b c d
      let (units, rest) ← textUnits rest
      return (.code n :: units, rest)
  | '\\' :: e :: rest => do
      let c ← simpleEscape? e
      let (units, rest) ← textUnits rest
      return (.char c :: units, rest)
  | c :: rest =>
      if c.toNat < 32 ∨ c = '\\' then none
      else (textUnits rest).map fun (units, rest) => (.char c :: units, rest)

/-- Joins surrogate pairs. A half without its other half spoils the text. -/
def characters : List TextUnit → Option (List Char)
  | [] => some []
  | .char c :: rest => (characters rest).map (c :: ·)
  | .code high :: .code low :: rest =>
      if 0xD800 ≤ high ∧ high < 0xDC00 then
        if 0xDC00 ≤ low ∧ low < 0xE000 then
          (characters rest).map
            (Char.ofNat (0x10000 + (high - 0xD800) * 0x400 + (low - 0xDC00)) :: ·)
        else none
      else if 0xDC00 ≤ high ∧ high < 0xE000 then none
      else (characters (.code low :: rest)).map (Char.ofNat high :: ·)
  | .code n :: rest =>
      if 0xD800 ≤ n ∧ n < 0xE000 then none
      else (characters rest).map (Char.ofNat n :: ·)

/-- A text behind its opening quote. -/
def text (s : List Char) : Option (Option String × List Char) :=
  (textUnits s).map fun (units, rest) => ((characters units).map String.ofList, rest)

def digits (s : List Char) : Option (List Char) :=
  match s with
  | c :: rest => if isDigit c then some (rest.dropWhile isDigit) else none
  | [] => none

def fraction : List Char → Option (List Char)
  | '.' :: rest => digits rest
  | s => some s

def exponent : List Char → Option (List Char)
  | c :: rest =>
      if c = 'e' ∨ c = 'E' then
        match rest with
        | '+' :: rest => digits rest
        | '-' :: rest => digits rest
        | rest => digits rest
      else some (c :: rest)
  | [] => some []

/-- A number without its sign. A leading zero stands alone. -/
def unsignedNumeral (s : List Char) : Option (List Char) :=
  let whole := match s with
    | '0' :: rest => if (rest.head?.map isDigit).getD false then none else some rest
    | s => digits s
  whole >>= fraction >>= exponent

def numeral : List Char → Option (List Char)
  | '-' :: rest => unsignedNumeral rest
  | s => unsignedNumeral s

mutual

/-- A value at the head of the text, and what follows it. -/
def value : Nat → List Char → Option (Json × List Char)
  | 0, _ => none
  | fuel + 1, s =>
      match skipSpace s with
      | 'n' :: 'u' :: 'l' :: 'l' :: rest => some (.null, rest)
      | 't' :: 'r' :: 'u' :: 'e' :: rest => some (.bool true, rest)
      | 'f' :: 'a' :: 'l' :: 's' :: 'e' :: rest => some (.bool false, rest)
      | '"' :: rest => (text rest).map fun (t, rest) => (.string t, rest)
      | '[' :: rest =>
          match skipSpace rest with
          | ']' :: rest => some (.array [], rest)
          | rest => (items fuel rest).map fun (items, rest) => (.array items, rest)
      | '{' :: rest =>
          match skipSpace rest with
          | '}' :: rest => some (.object [], rest)
          | rest => (members fuel rest).map fun (members, rest) => (.object members, rest)
      | rest => (numeral rest).map fun rest => (.number, rest)

def items : Nat → List Char → Option (List Json × List Char)
  | 0, _ => none
  | fuel + 1, s => do
      let (first, rest) ← value fuel s
      match skipSpace rest with
      | ',' :: rest =>
          let (more, rest) ← items fuel rest
          return (first :: more, rest)
      | ']' :: rest => return ([first], rest)
      | _ => none

def members : Nat → List Char → Option (List (Option String × Json) × List Char)
  | 0, _ => none
  | fuel + 1, s =>
      match skipSpace s with
      | '"' :: rest => do
          let (name, rest) ← text rest
          match skipSpace rest with
          | ':' :: rest =>
              let (first, rest) ← value fuel rest
              match skipSpace rest with
              | ',' :: rest =>
                  let (more, rest) ← members fuel rest
                  return ((name, first) :: more, rest)
              | '}' :: rest => return ([(name, first)], rest)
              | _ => none
          | _ => none
      | _ => none

end

/-- A text that is one value and nothing else. Every step into a value or past an item uses up a
character, so the fuel lasts. -/
def parse? (s : List Char) : Option Json := do
  let (result, rest) ← value (2 * s.length + 2) s
  if (skipSpace rest).isEmpty then some result else none

end Json
end TopicBridge
