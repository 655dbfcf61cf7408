import TopicBridge.Decimal.Reading
import TopicBridge.Decimal.Shortest
import TopicBridge.Text.Hex

/-! What a plain scalar means: nothing, a truth value, a number, or the text itself. -/
namespace TopicBridge.Yaml

/-- Integers lie between the least of 64 signed bits and the greatest of 64 unsigned ones. -/
inductive Scalar where
  | null
  | bool (value : Bool)
  | int (value : Int)
  | float (value : Float)
  | string (text : String)

namespace Scalar

/-- Fractions are written with a point in place while the number is neither long nor small. -/
def floatStyle : Decimal.Style where
  tie := .even
  plain := some (-5, 16)
  pointZero := true
  notANumber := ".nan"
  infinity := ".inf"

def toText? : Scalar → Option String
  | .null => none
  | .bool value => some (if value then "true" else "false")
  | .int value => some (toString value)
  | .float value => some (floatStyle.render value)
  | .string text => some text

/-- Whether two scalars are the same key. All that are not a number are one key, and the two
zeros are. -/
def same : Scalar → Scalar → Bool
  | .null, .null => true
  | .bool a, .bool b => a == b
  | .int a, .int b => a == b
  | .float a, .float b => a == b || (a.isNaN && b.isNaN)
  | .string a, .string b => a == b
  | _, _ => false

def isNull (text : String) : Bool := ["null", "Null", "NULL", "~"].contains text

def bool? (text : String) : Option Bool :=
  if ["true", "True", "TRUE"].contains text then some true
  else if ["false", "False", "FALSE"].contains text then some false
  else none

def digitsOf? (base : Nat) (chars : List Char) : Option Nat :=
  if chars.isEmpty then none
  else chars.foldlM (fun n c => (Hex.value? c).bind fun d =>
    if d < base then some (n * base + d) else none) 0

/-- An integer without its sign. Behind a leading zero stands the letter of a base. -/
def natural? : List Char → Option Nat
  | ['0'] => some 0
  | '0' :: 'x' :: rest => digitsOf? 16 rest
  | '0' :: 'o' :: rest => digitsOf? 8 rest
  | '0' :: 'b' :: rest => digitsOf? 2 rest
  | '0' :: _ => none
  | chars => digitsOf? 10 chars

def integer? : List Char → Option Int
  | '+' :: rest => (natural? rest).map Int.ofNat
  | '-' :: rest => (natural? rest).map fun n => -Int.ofNat n
  | chars => (natural? chars).map Int.ofNat

/-- Digits behind a leading zero, which are a text and no number. -/
def isPadded (chars : List Char) : Bool :=
  let digits := match chars with
    | '+' :: rest => rest
    | '-' :: rest => rest
    | _ => chars
  1 < digits.length && digits.head? == some '0' && digits.all Char.isDigit

def isInfinite (text : String) : Bool := [".inf", ".Inf", ".INF"].contains text

/-- A number that may have a fraction. Decimals out of range are no numbers; what is infinite or
no number at all has words of its own. -/
def float? (chars : List Char) : Option Float :=
  let (sign, unsigned) := match chars with
    | '+' :: rest => (some '+', rest)
    | '-' :: rest => (some '-', rest)
    | _ => (none, chars)
  let word := String.ofList unsigned
  if isInfinite word then some (if sign == some '-' then -(1 / 0) else 1 / 0)
  else if sign.isNone && [".nan", ".NaN", ".NAN"].contains word then some (0 / 0)
  else (Decimal.parse? chars).filter Float.isFinite

def fits (n : Int) : Bool :=
  (Text.IntegerRange.signed 64).low ≤ n && n ≤ (Text.IntegerRange.unsigned 64).high

/-- Whether an integer of this size is too large to be taken and too small to be a decimal. -/
def isRefused (n : Int) : Bool :=
  !fits n && (Text.IntegerRange.signed 128).low ≤ n && n ≤ (Text.IntegerRange.unsigned 128).high

def ofDecimal (text : String) : Scalar :=
  if isPadded text.toList then .string text
  else
    match float? text.toList with
    | some value => .float value
    | none => .string text

/-- What a plain scalar stands for. Integers of more than 64 and at most 128 bits are refused. -/
def ofPlain? (text : String) : Option Scalar :=
  if text.isEmpty || isNull text then some .null
  else
    match bool? text, integer? text.toList with
    | some value, _ => some (.bool value)
    | none, some n =>
        if fits n then some (.int n) else if isRefused n then none else some (ofDecimal text)
    | none, none => some (ofDecimal text)

def coreTag (name : String) : String := "tag:yaml.org,2002:" ++ name

/-- What a scalar under a tag stands for. The tags of four types ask for a text of that type; any
other tag makes it a text. -/
def ofTagged? (tag text : String) : Option Scalar :=
  if tag == coreTag "bool" then (bool? text).map .bool
  else if tag == coreTag "int" then
    (integer? text.toList).bind fun n => if fits n then some (.int n) else none
  else if tag == coreTag "float" then (float? text.toList).map .float
  else if tag == coreTag "null" then if isNull text then some .null else none
  else some (.string text)

end Scalar
end TopicBridge.Yaml
