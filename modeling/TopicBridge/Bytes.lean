/-! Octet strings as lists. A sixteen-bit field travels high octet first, and a search
gives the offset of the first occurrence of a pattern. -/
namespace TopicBridge

abbrev Bytes := List UInt8

namespace Bytes

/-- High octet first. -/
def ofUInt16 (value : UInt16) : Bytes :=
  [(value >>> 8).toUInt8, value.toUInt8]

def toUInt16 (high low : UInt8) : UInt16 :=
  (high.toUInt16 <<< 8) ||| low.toUInt16

/-- Looks for `pattern` in a list whose first octet has offset `start`. -/
def offsetFrom (pattern : Bytes) (start : Nat) : Bytes → Option Nat
  | [] => none
  | b :: rest =>
      if pattern.isPrefixOf (b :: rest) then some start
      else offsetFrom pattern (start + 1) rest

/-- The offset of the first occurrence of `pattern` in `s`. An empty pattern occurs nowhere. -/
def offsetOf? (pattern s : Bytes) : Option Nat :=
  if pattern.isEmpty then none else offsetFrom pattern 0 s

end Bytes
end TopicBridge
