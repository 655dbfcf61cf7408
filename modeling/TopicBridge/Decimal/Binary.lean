/-! Finite floating-point values as exact numbers, and the reals that round to each of them. -/
namespace TopicBridge.Decimal

def twoTo (n : Nat) : Nat := Nat.pow 2 n

def tenTo (n : Nat) : Nat := Nat.pow 10 n

/-- The value `mantissa · 2 ^ exponent`. `narrow` marks a power of two whose lower neighbour is
only half as far away as its upper one. -/
structure Binary where
  mantissa : Nat
  exponent : Int
  narrow : Bool
  deriving DecidableEq, Repr

/-- The magnitude that the bits of a finite value stand for. -/
def Binary.ofBits (bits : UInt64) : Binary :=
  let field := ((bits >>> 52) &&& 0x7FF).toNat
  let fraction := (bits &&& 0xFFFFFFFFFFFFF).toNat
  if field = 0 then ⟨fraction, -1074, false⟩
  else ⟨twoTo 52 + fraction, (field : Int) - 1075, fraction == 0 && 1 < field⟩

/-- The value `digits · 10 ^ exponent`. -/
structure Scaled where
  digits : Nat
  exponent : Int
  deriving DecidableEq, Repr

def Scaled.compareBinary (d : Scaled) (m : Nat) (e : Int) : Ordering :=
  compare (d.digits * tenTo d.exponent.toNat * twoTo (-e).toNat)
    (m * twoTo e.toNat * tenTo (-d.exponent).toNat)

/-- Whether a decimal lies among the reals that round to a value: from halfway to the lower
neighbour to halfway to the upper one, with both ends when the mantissa is even. -/
def Binary.covers (x : Binary) (d : Scaled) : Bool :=
  let low := if x.narrow then 4 * x.mantissa - 1 else 4 * x.mantissa - 2
  let above := d.compareBinary low (x.exponent - 2)
  let below := d.compareBinary (4 * x.mantissa + 2) (x.exponent - 2)
  if x.mantissa % 2 = 0 then above.isGE && below.isLE else above.isGT && below.isLT

end TopicBridge.Decimal
