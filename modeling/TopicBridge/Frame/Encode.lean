import TopicBridge.Frame
import TopicBridge.Frame.Config
import TopicBridge.Checksum
import TopicBridge.Cobs

/-! Frames to octets. A header holds topic, sequence number, payload length and payload check;
`px4` puts the marker in front of it, `cobs` stuffs header and payload and ends with a zero. -/
namespace TopicBridge.Frame

/-- Opens every `px4` frame. -/
def marker : Bytes := [0x3E, 0x3E, 0x3E]

/-- Ends every `cobs` frame. -/
def delimiter : UInt8 := 0

/-- Topic, sequence number, length and check of the payload. -/
def header (frame : Frame) : Bytes :=
  [frame.topic, frame.seq] ++ Bytes.ofUInt16 (UInt16.ofNat frame.payload.length) ++
    Bytes.ofUInt16 (Checksum.crc16 frame.payload)

def record (frame : Frame) : Bytes := frame.header ++ frame.payload

def wire (protocol : Protocol) (frame : Frame) : Bytes :=
  match protocol with
  | .px4 => marker ++ frame.record
  | .cobs => Cobs.stuff frame.record ++ [delimiter]

/-- The octets of a frame. A payload that overruns the length field has none. -/
def encode (protocol : Protocol) (frame : Frame) : Except FrameError Bytes :=
  if FrameConfig.maxLength < frame.payload.length then
    .error (.payloadTooLarge frame.payload.length FrameConfig.maxLength)
  else .ok (frame.wire protocol)

def encodeOnto (protocol : Protocol) (frame : Frame) (buffer : Bytes) :
    Except FrameError Unit × Bytes :=
  match encode protocol frame with
  | .error cause => (.error cause, buffer)
  | .ok octets => (.ok (), buffer ++ octets)

end TopicBridge.Frame
