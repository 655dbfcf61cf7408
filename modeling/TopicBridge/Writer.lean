import TopicBridge.Reader

/-! The outbound half of a link. A frame is sent whole; a failed write leaves the sequence
number for the next one. -/
namespace TopicBridge

structure Writer where
  config : FrameConfig
  nextSeq : UInt8 := 0
  stats : Stats := {}
  deriving DecidableEq, Repr

namespace Writer

def create (config : FrameConfig) : Except FrameError Writer := do
  config.validate
  .ok { config }

def maxPayload (writer : Writer) : Nat := writer.config.effectiveMaxPayload

def advance (writer : Writer) (size : Nat) : Writer :=
  { writer with nextSeq := writer.nextSeq + 1, stats := writer.stats.frame size }

def drop (writer : Writer) : Writer := { writer with stats := writer.stats.drop }

/-- Frames and sends one payload, and answers its length. -/
def write (writer : Writer) (link : Link) (topic : UInt8) (payload : Bytes) :
    Except FrameError Nat × Writer × Link :=
  if writer.maxPayload < payload.length then
    (.error (.payloadTooLarge payload.length writer.maxPayload), writer.drop, link)
  else
    match Frame.encodeOnto writer.config.protocol ⟨topic, writer.nextSeq, payload⟩ [] with
    | (.error cause, _) => (.error cause, writer, link)
    | (.ok (), wire) =>
        let (outcome, link) := link.send wire
        match outcome with
        | .error cause => (.error (.link cause), writer.drop, link)
        | .ok () => (.ok payload.length, writer.advance payload.length, link)

def describe (writer : Writer) : String :=
  s!"FrameSender \x7b stats: {writer.stats.describe} \x7d"

end Writer
end TopicBridge
