import TopicBridge.OrderedMap
import TopicBridge.Decimal.Shortest
import TopicBridge.Error
import TopicBridge.Text.Integer

/-! Startup parameters: scalar values under dotted names, kept in the order of the names. A
text that spells an integer serves as one. -/
namespace TopicBridge

inductive ParamValue where
  | bool (value : Bool)
  | int (value : Int64)
  | float (value : Float)
  | string (value : String)

namespace ParamValue

/-- Floating-point values are written out in full, without an exponent. -/
def floatStyle : Decimal.Style where
  tie := .up
  plain := none
  pointZero := false
  notANumber := "NaN"
  infinity := "inf"

def toText : ParamValue → String
  | .bool value => if value then "true" else "false"
  | .int value => toString value.toInt
  | .float value => floatStyle.render value
  | .string value => value

def asInt : ParamValue → Option Int64
  | .int value => some value
  | .string value => Text.int64? (Text.trim value.toList)
  | _ => none

def asString : ParamValue → Option String
  | .string value => some value
  | _ => none

def kind : ParamValue → String
  | .bool _ => "bool"
  | .int _ => "integer"
  | .float _ => "float"
  | .string _ => "string"

end ParamValue

abbrev Parameters := OrderedMap String ParamValue

namespace Parameters

/-- Lays `overlay` on top: its values replace those of the same name. -/
def merge (params overlay : Parameters) : Parameters := params.insertAll overlay.entries

def wrongType (name expected : String) (value : ParamValue) : BridgeError :=
  .invalidParameter name s!"expected {expected}, got {value.kind} '{value.toText}'"

def require (params : Parameters) (name : String) : Except BridgeError ParamValue :=
  match params.find? name with
  | some value => .ok value
  | none => .error (.missingParameter name)

def stringOf (name : String) (value : ParamValue) : Except BridgeError String :=
  match value.asString with
  | some text => .ok text
  | none => .error (wrongType name "string" value)

def intOf (name : String) (value : ParamValue) : Except BridgeError Int :=
  match value.asInt with
  | some n => .ok n.toInt
  | none => .error (wrongType name "integer" value)

def requireString (params : Parameters) (name : String) : Except BridgeError String := do
  stringOf name (← params.require name)

def requireInt (params : Parameters) (name : String) : Except BridgeError Int := do
  intOf name (← params.require name)

def inRange (range : Text.IntegerRange) (name : String) (n : Int) : Except BridgeError Int :=
  if range.contains n then .ok n else .error (.invalidParameter name s!"{n} is out of range")

def requireWithin (params : Parameters) (range : Text.IntegerRange) (name : String) :
    Except BridgeError Int := do
  inRange range name (← params.requireInt name)

def optionalString (params : Parameters) (name : String) : Except BridgeError (Option String) :=
  match params.find? name with
  | none => .ok none
  | some value => (stringOf name value).map some

def optionalWithin (params : Parameters) (range : Text.IntegerRange) (name : String) :
    Except BridgeError (Option Int) :=
  if params.contains name then (params.requireWithin range name).map some else .ok none

def requireNat (params : Parameters) (bits : Nat) (name : String) : Except BridgeError Nat :=
  (params.requireWithin (.unsigned bits) name).map Int.toNat

end Parameters
end TopicBridge
