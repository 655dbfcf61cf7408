import TopicBridge.Text.Blank

/-! Decimal integers as text, and the ranges an integer may have to lie in. -/
namespace TopicBridge.Text

def digit? (c : Char) : Option Nat :=
  if '0' ≤ c ∧ c ≤ '9' then some (c.toNat - '0'.toNat) else none

def digitsFrom (value : Nat) : List Char → Option Nat
  | [] => some value
  | c :: rest => (digit? c).bind fun d => digitsFrom (value * 10 + d) rest

def natural? (s : List Char) : Option Nat :=
  if s.isEmpty then none else digitsFrom 0 s

def integer? : List Char → Option Int
  | '+' :: rest => (natural? rest).map Int.ofNat
  | '-' :: rest => (natural? rest).map fun n => -Int.ofNat n
  | s => (natural? s).map Int.ofNat

structure IntegerRange where
  low : Int
  high : Int
  deriving DecidableEq, Repr

namespace IntegerRange

def contains (range : IntegerRange) (n : Int) : Bool := range.low ≤ n && n ≤ range.high

def unsigned (bits : Nat) : IntegerRange := ⟨0, Int.ofNat (Nat.pow 2 bits) - 1⟩

def signed (bits : Nat) : IntegerRange :=
  let half := Int.ofNat (Nat.pow 2 (bits - 1))
  ⟨-half, half - 1⟩

end IntegerRange

def int64? (s : List Char) : Option Int64 :=
  (integer? s).bind fun n =>
    if (IntegerRange.signed 64).contains n then some (Int64.ofInt n) else none

end TopicBridge.Text
