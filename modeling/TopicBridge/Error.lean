import TopicBridge.Duration
import TopicBridge.Frame.Error

/-! Why a bridge cannot start or keep running. Only the loss of a frame is survivable; all that
concerns configuration, negotiation and setting up the link is fatal. -/
namespace TopicBridge

inductive BridgeError where
  | missingParameter (name : String)
  | invalidParameter (name reason : String)
  | invalidDirection (topic value : String)
  | incompleteTopic (topic missing : String)
  | duplicateTopicId (id : UInt8) (first second : String)
  | reservedTopicId (topic : String) (id : UInt8)
  | negotiationTimeout (wait : Duration)
  | malformedNegotiation (reason : String)
  | host (reason : String)
  | link (cause : LinkError)
  | frame (cause : FrameError)
  deriving DecidableEq, Repr

namespace BridgeError

def message : BridgeError → String
  | .missingParameter name => s!"no {name} parameter specified, cannot continue"
  | .invalidParameter name reason => s!"invalid parameter {name}: {reason}"
  | .invalidDirection topic value =>
      s!"invalid direction '{value}' for topic {topic}; must be one of 'SerialToROS2' or 'ROS2ToSerial'"
  | .incompleteTopic topic missing => s!"topic {topic} has no {missing} setting"
  | .duplicateTopicId id first second => s!"topics {first} and {second} both map to serial id {id}"
  | .reservedTopicId topic id => s!"topic {topic} uses reserved serial id {id}"
  | .negotiationTimeout wait =>
      s!"no response to dynamic serial mapping request within {wait.render}"
  | .malformedNegotiation reason => s!"malformed serial mapping response: {reason}"
  | .host reason => s!"host error: {reason}"
  | .link cause => s!"transport error: {cause.message}"
  | .frame cause => s!"frame error: {cause.message}"

def linkCause : BridgeError → Option LinkError
  | .link cause => some cause
  | .frame (.link cause) => some cause
  | _ => none

/-- A failure of the link that leaves no link to use. -/
def endsLink : LinkError → Bool
  | .openFailed _ _ => true
  | .unsupportedBaudRate _ => true
  | .bind _ _ => true
  | .resolve _ _ => true
  | .closed => true
  | _ => false

def isFatal : BridgeError → Bool
  | .link cause => endsLink cause
  | .frame (.link cause) => endsLink cause
  | .frame cause => !cause.isTransient
  | _ => true

end BridgeError
end TopicBridge
