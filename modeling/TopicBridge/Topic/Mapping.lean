import TopicBridge.Bytes

/-! Topics as the two ends know them: a name and a type at the host, an id on the link, and a
direction between the two. -/
namespace TopicBridge

/-- Which way the messages of a topic cross the link. -/
inductive Direction where
  | serialToHost
  | hostToSerial
  | unknown
  deriving DecidableEq, Repr

namespace Direction

def name : Direction → String
  | .serialToHost => "SerialToROS2"
  | .hostToSerial => "ROS2ToSerial"
  | .unknown => "Unknown"

def ofName? : String → Option Direction
  | "SerialToROS2" => some .serialToHost
  | "ROS2ToSerial" => some .hostToSerial
  | _ => none

def code? : Direction → Option UInt8
  | .serialToHost => some 0
  | .hostToSerial => some 1
  | .unknown => none

def ofCode? (code : UInt8) : Option Direction :=
  if code = 0 then some .serialToHost
  else if code = 1 then some .hostToSerial
  else none

end Direction

structure TopicMapping where
  topicId : UInt8
  name : String
  typeName : String
  direction : Direction
  deriving DecidableEq, Repr

end TopicBridge
