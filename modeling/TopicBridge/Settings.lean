import TopicBridge.Parameter
import TopicBridge.Frame.Config
import TopicBridge.Link.Address

/-! What the startup parameters say about the bridge and about its link. Settings are read one
after the other, so the first faulty parameter is the one reported. -/
namespace TopicBridge

/-- A `mappingWait` of zero or less selects the static topic table. Spans of time are in
milliseconds. -/
structure Settings where
  protocol : Protocol := .px4
  readPoll : Nat := 100
  ringSize : Nat := 8192
  writeSleep : Nat := 10
  maxPayload : Nat := 1024
  mappingWait : Int := -1
  deriving DecidableEq, Repr

namespace Settings

def frameConfig (settings : Settings) : FrameConfig :=
  { protocol := settings.protocol
    maxPayload := settings.maxPayload
    ringCapacity := settings.ringSize
    readPoll := .ofMillis settings.readPoll }

def writeSleepTime (settings : Settings) : Duration := .ofMillis settings.writeSleep

/-- How long to wait for a negotiated table, if one is to be negotiated. -/
def negotiationWait (settings : Settings) : Option Duration :=
  if 0 < settings.mappingWait then some (.ofMillis settings.mappingWait.toNat) else none

def positive (name : String) (value : Nat) : Except BridgeError Unit :=
  if value = 0 then .error (.invalidParameter name "must be greater than zero") else .ok ()

def validate (settings : Settings) : Except BridgeError Unit := do
  positive "read_poll_ms" settings.readPoll
  positive "write_sleep_ms" settings.writeSleep
  positive "max_payload" settings.maxPayload
  settings.frameConfig.validate.mapError fun cause =>
    .invalidParameter "ring_buffer_size" cause.message

def protocolOf (name : String) : Except BridgeError Protocol :=
  match Protocol.ofName? name with
  | some protocol => .ok protocol
  | none =>
      .error (.invalidParameter "serial_protocol"
        s!"unknown protocol '{name}' (expected px4 or cobs)")

/-- Reads the settings. All but `max_payload` are required. -/
def ofParameters (params : Parameters) : Except BridgeError Settings := do
  let protocol ← protocolOf (← params.requireString "serial_protocol")
  let readPoll ← params.requireNat 64 "read_poll_ms"
  let ringSize ← params.requireNat 64 "ring_buffer_size"
  let writeSleep ← params.requireNat 64 "write_sleep_ms"
  let maxPayload ← params.optionalWithin (.unsigned 64) "max_payload"
  let mappingWait ← params.requireInt "dynamic_serial_mapping_ms"
  let settings : Settings :=
    { protocol
      readPoll
      ringSize
      writeSleep
      maxPayload := (maxPayload.map Int.toNat).getD 1024
      mappingWait }
  settings.validate
  return settings

end Settings

/-- Reads where the link leads. A link is serial unless `transport` says otherwise. -/
def LinkAddress.ofParameters (params : Parameters) : Except BridgeError LinkAddress := do
  let transport ← params.optionalString "transport"
  let device ← params.requireString "device"
  match transport.getD "serial" with
  | "serial" => return .serial device (← params.requireNat 32 "baudrate")
  | "udp" =>
      let receivePort ← params.requireNat 16 "recv_port"
      let sendPort ← params.requireNat 16 "send_port"
      return .udp device receivePort sendPort
  | other =>
      throw (.invalidParameter "transport"
        s!"unknown transport '{other}' (expected serial or udp)")

end TopicBridge
