import TopicBridge.Duration
import TopicBridge.Frame.Error

/-! The two wire protocols and the sizes of a framing. A configuration is usable when its
queue holds the longest encoding of a one-octet payload, and it then accepts every payload
whose longest encoding still fits. -/
namespace TopicBridge

/-- `px4` opens each frame with a marker, `cobs` ends each frame with a zero. -/
inductive Protocol where
  | px4
  | cobs
  deriving DecidableEq, Repr

namespace Protocol

def name : Protocol → String
  | .px4 => "px4"
  | .cobs => "cobs"

def ofName? : String → Option Protocol
  | "px4" => some .px4
  | "cobs" => some .cobs
  | _ => none

def parse (text : String) : Except FrameError Protocol :=
  match ofName? text with
  | some protocol => .ok protocol
  | none =>
      .error (.config s!"unknown serial protocol '{text}' (expected 'px4' or 'cobs')")

/-- The octets in front of the payload, before any stuffing. -/
def headerLength : Protocol → Nat
  | .px4 => 9
  | .cobs => 6

/-- An upper bound on the stuffed size of `length` octets. -/
def stuffedMax (length : Nat) : Nat := length + length / 254 + 1

def maxWireLength (protocol : Protocol) (payload : Nat) : Nat :=
  match protocol with
  | .px4 => headerLength .px4 + payload
  | .cobs => stuffedMax (headerLength .cobs + payload) + 1

end Protocol

structure FrameConfig where
  protocol : Protocol := .px4
  maxPayload : Nat := 1024
  ringCapacity : Nat := 8192
  readPoll : Duration := .ofMillis 100
  writeTimeout : Duration := .ofMillis 100
  deriving DecidableEq, Repr

namespace FrameConfig

/-- The largest length that the sixteen-bit length field can hold. -/
def maxLength : Nat := 65535

/-- The largest size at most `size` whose longest encoding fits `capacity`, or zero. -/
def fitting (protocol : Protocol) (capacity : Nat) : Nat → Nat
  | 0 => 0
  | size + 1 =>
      if capacity < protocol.maxWireLength (size + 1) then fitting protocol capacity size
      else size + 1

/-- The largest payload that the limits, the length field and the queue all allow. -/
def effectiveMaxPayload (config : FrameConfig) : Nat :=
  fitting config.protocol config.ringCapacity
    (min (min config.maxPayload (config.ringCapacity - config.protocol.headerLength)) maxLength)

def validate (config : FrameConfig) : Except FrameError Unit :=
  let smallest := config.protocol.maxWireLength 1
  if config.ringCapacity < smallest then
    .error (.config
      s!"ring buffer of {config.ringCapacity} bytes cannot hold a {smallest} byte {config.protocol.name} frame")
  else if config.maxPayload = 0 then .error (.config "max payload must be non-zero")
  else if config.readPoll.isZero then .error (.config "read poll interval must be non-zero")
  else .ok ()

end FrameConfig
end TopicBridge
