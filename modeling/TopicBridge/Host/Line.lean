import TopicBridge.Json.Value

/-! Messages of the host as lines of text: an object with a topic and a payload in hexadecimal
digits, or an array of just these two. Further members of an object do not matter. -/
namespace TopicBridge

/-- A message that waits to go out on the link. -/
structure HostMessage where
  topic : String
  payload : Bytes
  deriving DecidableEq, Repr

namespace HostMessage

inductive Fault where
  | form
  | digits (topic : String)
  deriving DecidableEq, Repr

/-- The text of the member of that name, if it occurs once and is a text. -/
def member? (name : String) (members : List (Option String × Json)) : Option String :=
  match members.filter (·.1 == some name) with
  | [(_, .string text)] => text
  | _ => none

/-- The topic and the payload that a line spells. Every name in the object has characters. -/
def fields? : Json → Option (String × String)
  | .object members =>
      if members.all (·.1.isSome) then do
        let topic ← member? "topic" members
        let payload ← member? "payload" members
        return (topic, payload)
      else none
  | .array [.string topic, .string payload] => do
      let topic ← topic
      let payload ← payload
      return (topic, payload)
  | _ => none

def parse (line : String) : Except Fault HostMessage :=
  match Json.parse? line.toList >>= fields? with
  | none => .error .form
  | some (topic, digits) =>
      match Hex.parse? digits with
      | none => .error (.digits topic)
      | some payload => .ok { topic, payload }

def Fault.message : Fault → String
  | .form => ""
  | .digits topic => s!"payload for {topic} is not valid hex"

end HostMessage
end TopicBridge
