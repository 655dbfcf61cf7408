import TopicBridge.Bytes
import TopicBridge.Text.Blank

/-! Octets as text, two hexadecimal digits each. Reading also takes capital digits, white
space at the ends, and an octet written as a plus sign and one digit. -/
namespace TopicBridge.Hex

def digit (n : Nat) : Char := Nat.digitChar n

/-- High half first. -/
def octetText (b : UInt8) : List Char := [digit (b.toNat / 16), digit (b.toNat % 16)]

def chars (data : Bytes) : List Char := data.flatMap octetText

def render (data : Bytes) : String := String.ofList (chars data)

def value? (c : Char) : Option Nat :=
  if '0' ≤ c ∧ c ≤ '9' then some (c.toNat - '0'.toNat)
  else if 'a' ≤ c ∧ c ≤ 'f' then some (c.toNat - 'a'.toNat + 10)
  else if 'A' ≤ c ∧ c ≤ 'F' then some (c.toNat - 'A'.toNat + 10)
  else none

/-- Two digits, or a plus sign and a digit. -/
def octet? (first second : Char) : Option UInt8 := do
  let low ← value? second
  let high ← if first = '+' then some 0 else value? first
  some (UInt8.ofNat (high * 16 + low))

def ofChars? : List Char → Option Bytes
  | [] => some []
  | [_] => none
  | first :: second :: rest => do
      let b ← octet? first second
      let more ← ofChars? rest
      some (b :: more)

def parse? (text : String) : Option Bytes := ofChars? (Text.trim text.toList)

end TopicBridge.Hex
