/-! Spans of time, counted in nanoseconds. The text of a span names the largest unit whose
whole part is not zero and carries no trailing zeros. -/
namespace TopicBridge

structure Duration where
  nanoseconds : Nat
  deriving DecidableEq, Repr

namespace Duration

def ofMillis (milliseconds : Nat) : Duration := ⟨milliseconds * 1000000⟩

def isZero (d : Duration) : Bool := d.nanoseconds == 0

/-- The digits after the point: `value` written with `places` digits, trailing zeros dropped. -/
def fraction (places value : Nat) : List Char :=
  let digits := Nat.toDigits 10 value
  let padded := List.replicate (places - digits.length) '0' ++ digits
  (padded.reverse.dropWhile (· == '0')).reverse

/-- `value` in a unit of as many nanoseconds as a one with `places` zeros. -/
def inUnit (places : Nat) (unit : String) (value : Nat) : String :=
  let size := Nat.pow 10 places
  let whole := toString (value / size)
  let rest := value % size
  if rest = 0 then whole ++ unit
  else whole ++ "." ++ String.ofList (fraction places rest) ++ unit

/-- Seconds, milliseconds, microseconds or nanoseconds, the first that is at least one. -/
def render (d : Duration) : String :=
  if 1000000000 ≤ d.nanoseconds then inUnit 9 "s" d.nanoseconds
  else if 1000000 ≤ d.nanoseconds then inUnit 6 "ms" d.nanoseconds
  else if 1000 ≤ d.nanoseconds then inUnit 3 "µs" d.nanoseconds
  else inUnit 0 "ns" d.nanoseconds

end Duration
end TopicBridge
