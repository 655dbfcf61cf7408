import TopicBridge.Decimal.Binary

/-! The decimal with the fewest digits that reads back to a floating-point value, the nearest
one if there are several, and its layout as text. -/
namespace TopicBridge.Decimal

/-- Which of two equally near decimals is taken. -/
inductive Tie where
  | up
  | even
  deriving DecidableEq, Repr

/-- The integer part of a value over `10 ^ grid`, and whether the rest is less than, equal to
or more than one half. -/
def Binary.onGrid (x : Binary) (grid : Int) : Nat × Ordering :=
  let numerator := x.mantissa * twoTo x.exponent.toNat * tenTo (-grid).toNat
  let denominator := twoTo (-x.exponent).toNat * tenTo grid.toNat
  (numerator / denominator, compare (2 * (numerator % denominator)) denominator)

/-- The decimal on the grid `10 ^ grid` that covers the value best, if one does. -/
def Binary.pick (tie : Tie) (x : Binary) (grid : Int) : Option Scaled :=
  let (whole, half) := x.onGrid grid
  let lower : Scaled := ⟨whole, grid⟩
  let upper : Scaled := ⟨whole + 1, grid⟩
  let lowerNearer := match half, tie with
    | .lt, _ => true
    | .gt, _ => false
    | .eq, .up => false
    | .eq, .even => whole % 2 == 0
  match x.covers lower, x.covers upper with
  | true, true => some (if lowerNearer then lower else upper)
  | true, false => some lower
  | false, true => some upper
  | false, false => none

/-- The number of digits before the point: the least `k` with the value below `10 ^ k`. -/
def Binary.places (x : Binary) : Int :=
  let guess := ((x.mantissa.log2 : Int) + x.exponent) * 30103 / 100000 - 1
  let fits (k : Int) : Bool :=
    (Scaled.mk 1 k).compareBinary x.mantissa x.exponent == .gt
  ([guess, guess + 1, guess + 2, guess + 3].find? fits).getD (guess + 4)

/-- Tries grids from coarse to fine. Seventeen digits always read back. -/
def Binary.search (tie : Tie) (x : Binary) (places : Int) : Nat → Nat → Scaled
  | _, 0 => ⟨(x.onGrid (places - 17)).1, places - 17⟩
  | count, fuel + 1 =>
      match x.pick tie (places - count) with
      | some d => d
      | none => search tie x places (count + 1) fuel

/-- Moves trailing zeros of the digits into the exponent. -/
def Scaled.strip (d : Scaled) : Nat → Scaled
  | 0 => d
  | fuel + 1 =>
      if d.digits ≠ 0 ∧ d.digits % 10 = 0 then strip ⟨d.digits / 10, d.exponent + 1⟩ fuel else d

def Binary.shortest (tie : Tie) (x : Binary) : Scaled :=
  (x.search tie x.places 1 17).strip 18

/-- How a decimal is laid out. Exponents of the leading digit from `plainFrom` up to but not
including `plainBelow` are written with the point in place, all if there are no bounds. -/
structure Style where
  tie : Tie
  plain : Option (Int × Int)
  pointZero : Bool
  notANumber : String
  infinity : String

def Scaled.plain (d : Scaled) (pointZero : Bool) : String :=
  let digits := Nat.toDigits 10 d.digits
  let before := (digits.length : Int) + d.exponent
  if 0 ≤ d.exponent then
    String.ofList (digits ++ List.replicate d.exponent.toNat '0') ++ if pointZero then ".0" else ""
  else if 0 < before then
    String.ofList (digits.take before.toNat) ++ "." ++ String.ofList (digits.drop before.toNat)
  else "0." ++ String.ofList (List.replicate (-before).toNat '0' ++ digits)

def Scaled.scientific (d : Scaled) : String :=
  let digits := Nat.toDigits 10 d.digits
  let lead := (digits.length : Int) + d.exponent - 1
  String.ofList (digits.take 1) ++
    (if digits.length = 1 then "" else "." ++ String.ofList (digits.drop 1)) ++
    "e" ++ toString lead

def Scaled.render (style : Style) (d : Scaled) : String :=
  let lead := ((Nat.toDigits 10 d.digits).length : Int) + d.exponent - 1
  match style.plain with
  | none => d.plain style.pointZero
  | some (low, high) =>
      if low ≤ lead ∧ lead < high then d.plain style.pointZero else d.scientific

/-- The text of a value. Zero keeps its sign. -/
def Style.render (style : Style) (x : Float) : String :=
  let bits := x.toBits
  let sign := if bits >>> 63 = 1 then "-" else ""
  let magnitude := bits &&& 0x7FFFFFFFFFFFFFFF
  if 0x7FF0000000000000 < magnitude then style.notANumber
  else if magnitude = 0x7FF0000000000000 then sign ++ style.infinity
  else if magnitude = 0 then sign ++ (Scaled.mk 0 0).render style
  else sign ++ ((Binary.ofBits magnitude).shortest style.tie).render style

end TopicBridge.Decimal
