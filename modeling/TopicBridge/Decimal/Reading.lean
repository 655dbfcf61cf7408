import TopicBridge.Text.Integer

/-! Floating-point values from decimal text: digits with an optional point and an optional
exponent, rounded to the nearest value. -/
namespace TopicBridge.Decimal

/-- A decimal as written: the digits as one number, and the power of ten they stand at. -/
structure Literal where
  digits : Nat
  exponent : Int
  deriving DecidableEq, Repr

/-- The nearest value. Past four hundred places every value is infinite, and as far below the
point it is zero. -/
def Literal.toFloat (literal : Literal) : Float :=
  let size := ((Nat.toDigits 10 literal.digits).length : Int) + literal.exponent
  if literal.digits = 0 then 0
  else if 400 < size then 1 / 0
  else if size < -400 then 0
  else if 0 ≤ literal.exponent then Float.ofScientific literal.digits false literal.exponent.toNat
  else Float.ofScientific literal.digits true (-literal.exponent).toNat

/-- An exponent behind its letter: digits, possibly behind one sign. Nothing stands for zero. -/
def exponent? : List Char → Option Int
  | [] => some 0
  | c :: rest => if c = 'e' ∨ c = 'E' then Text.integer? rest else none

/-- Reads an unsigned decimal. At least one digit stands before or behind the point. -/
def Literal.parse? (s : List Char) : Option Literal :=
  let isDigit (c : Char) : Bool := (Text.digit? c).isSome
  let whole := s.takeWhile isDigit
  let rest := s.dropWhile isDigit
  let fraction := match rest with
    | '.' :: more => more.takeWhile isDigit
    | _ => []
  let tail := match rest with
    | '.' :: more => more.dropWhile isDigit
    | _ => rest
  (Text.natural? (whole ++ fraction)).bind fun digits =>
    (exponent? tail).map fun power => ⟨digits, power - fraction.length⟩

def parse? : List Char → Option Float
  | '-' :: rest => (Literal.parse? rest).map fun literal => -literal.toFloat
  | '+' :: rest => (Literal.parse? rest).map Literal.toFloat
  | s => (Literal.parse? s).map Literal.toFloat

end TopicBridge.Decimal
