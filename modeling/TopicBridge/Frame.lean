import TopicBridge.Bytes

/-! Frames: topic-tagged payloads with a wrapping sequence number. The two lowest topic ids
belong to the negotiation of the topic table. -/
namespace TopicBridge

structure Frame where
  topic : UInt8
  seq : UInt8
  payload : Bytes
  deriving DecidableEq, Repr

namespace Topic

/-- Asks the peer for its topic table. -/
def request : UInt8 := 0

/-- Carries the topic table. -/
def response : UInt8 := 1

/-- Ids below this one are not for applications. -/
def firstApplication : UInt8 := 2

def isReserved (id : UInt8) : Bool := id < firstApplication

inductive Role where
  | request
  | response
  | application
  deriving DecidableEq, Repr

def role (id : UInt8) : Role :=
  if id = request then .request
  else if id = response then .response
  else .application

end Topic
end TopicBridge
