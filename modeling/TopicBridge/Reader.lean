import TopicBridge.Link
import TopicBridge.Frame.Decode

/-! The inbound half of a link: received octets wait outside the queue until there is room,
frames are assembled from the queue. Each read makes at most one receive, and only when
nothing that was received before is left to feed. -/
namespace TopicBridge

structure Stats where
  frames : Nat := 0
  bytes : Nat := 0
  dropped : Nat := 0
  overflows : Nat := 0
  deriving DecidableEq, Repr

namespace Stats

def frame (stats : Stats) (size : Nat) : Stats :=
  { stats with frames := stats.frames + 1, bytes := stats.bytes + size }

def drop (stats : Stats) : Stats := { stats with dropped := stats.dropped + 1 }

def overflow (stats : Stats) : Stats := { stats with overflows := stats.overflows + 1 }

def describe (stats : Stats) : String :=
  s!"FrameStats \x7b frames: {stats.frames}, bytes: {stats.bytes}, dropped: {stats.dropped}, overflows: {stats.overflows} \x7d"

end Stats

/-- `pending` holds received octets that found no room in the queue yet. -/
structure Reader where
  config : FrameConfig
  ring : Ring
  pending : Bytes := []
  stats : Stats := {}

namespace Reader

def create (config : FrameConfig) : Except FrameError Reader := do
  config.validate
  match Ring.ofCapacity? config.ringCapacity with
  | some ring => .ok { config, ring }
  | none => .error (.config Ring.zeroCapacity)

def headerLength (reader : Reader) : Nat := reader.config.protocol.headerLength
def maxPayload (reader : Reader) : Nat := reader.config.effectiveMaxPayload

def buffered (reader : Reader) : Nat := reader.ring.length + reader.pending.length

/-- The most octets one receive may yield: a datagram is read whole. -/
def room (reader : Reader) (kind : LinkKind) : Nat :=
  match kind with
  | .stream => reader.config.ringCapacity
  | .datagram => max reader.config.ringCapacity Link.maxDatagram

def assemble (reader : Reader) : Except FrameError (Option Frame) × Reader :=
  let decoded := Frame.decode reader.config.protocol reader.maxPayload reader.ring
  let reader := { reader with ring := decoded.2 }
  (decoded.1,
   match decoded.1 with
   | .ok (some frame) => { reader with stats := reader.stats.frame frame.payload.length }
   | .ok none => reader
   | .error _ => { reader with stats := reader.stats.drop })

/-- A full queue without a frame can never complete one, so its content goes. -/
def overflowed (reader : Reader) : FrameError × Reader :=
  (.link (.overflow reader.pending.length reader.ring.free),
   { reader with ring := reader.ring.clear, stats := reader.stats.overflow })

/-- Feeds pending octets into the queue until a frame or an error appears or none are left. -/
def drain (reader : Reader) : Except FrameError (Option Frame) × Reader :=
  let assembled := reader.assemble
  match assembled.1 with
  | .ok none =>
      let room := assembled.2.ring.free
      if reader.pending = [] then assembled
      else if room = 0 then
        let lost := assembled.2.overflowed
        (.error lost.1, lost.2)
      else
        match assembled.2.ring.push (reader.pending.take room) with
        | .error cause => (.error (.link cause), assembled.2)
        | .ok ring => drain { assembled.2 with ring, pending := reader.pending.drop room }
  | _ => assembled
  termination_by reader.pending.length
  decreasing_by
    rename_i hne hroom
    have hpending : 0 < reader.pending.length := List.length_pos_iff.mpr hne
    have hfree : assembled.2.ring.free ≠ 0 := hroom
    show (reader.pending.drop assembled.2.ring.free).length < reader.pending.length
    rw [List.length_drop]
    omega

/-- One bounded read attempt. Nothing means that the link stayed silent or no frame completed. -/
def readFrame (reader : Reader) (link : Link) :
    Except FrameError (Option Frame) × Reader × Link :=
  let drained := reader.drain
  match drained.1 with
  | .ok none =>
      let (received, link) := link.receive (drained.2.room link.kind)
      match received with
      | .error cause => (.error (.link cause), drained.2, link)
      | .ok [] => (.ok none, drained.2, link)
      | .ok data =>
          let fed := { drained.2 with pending := data }.drain
          (fed.1, fed.2, link)
  | result => (result, drained.2, link)

end Reader
end TopicBridge
