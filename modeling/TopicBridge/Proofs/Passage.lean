import TopicBridge.Proofs.Session
import TopicBridge.Proofs.Writing

/-! One frame on its way from a writer to the reader at the other end. A write leaves the encoding
of one frame on the link or nothing at all, and a reader with nothing in hand takes such an
encoding, received in one chunk, without leaving any of it behind. -/
namespace TopicBridge

namespace Link

/-- Sends every message of up to `size` octets. -/
def Takes (size : Nat) (link : Link) : Prop := ∀ length ≤ size, link.refusal length = none

/-- Nothing has arrived, and every message of up to `size` octets can be sent. -/
structure Fresh (size : Nat) (link : Link) : Prop where
  idle : link.arrivals = []
  takes : link.Takes size

section
variable {size : Nat} {link : Link}

theorem Takes.opened (h : link.Takes size) : link.closed = false := by
  have hempty := h 0 (Nat.zero_le size)
  cases hclosed : link.closed with
  | false => rfl
  | true => simp [refusal, hclosed] at hempty

theorem Takes.receive_of_nil (h : link.Takes size) (hnone : link.arrivals = []) (room : Nat) :
    link.receive room = (.ok [], link) := by
  rw [receive, h.opened, hnone]
  rfl

/-- A chunk that fits the room is received whole, on a link of either kind. -/
theorem receive_of_chunk (hopened : link.closed = false) {data : Bytes} {rest : List Arrival}
    (hnext : link.arrivals = .chunk data :: rest) {room : Nat} (hfits : data.length ≤ room) :
    link.receive room = (.ok data, { link with arrivals := rest }) := by
  have hnothing : leftover link.kind room data = [] := by
    cases link.kind with
    | stream => rw [leftover, if_pos hfits]
    | datagram => rfl
  rw [receive, hopened, hnext]
  simp only [Bool.false_eq_true, if_false, List.take_of_length_le hfits, hnothing, List.nil_append]

end
end Link

namespace Reader

section
variable {config : FrameConfig} {reader : Reader} {frame : Frame}

theorem Sound.result_assemble_of_empty (hsound : Sound config reader)
    (hring : reader.ring.toList = []) : reader.assemble.1 = .ok none := by
  rw [hsound.result_assemble, hring, FrameConfig.look, Frame.look_nil]
  rfl

theorem Sound.drain_of_drained (hsound : Sound config reader) (hdrained : reader.waiting = []) :
    reader.drain.1 = .ok none ∧ Sound config reader.drain.2 ∧ reader.drain.2.waiting = [] := by
  obtain ⟨hring, hpending⟩ := List.append_eq_nil_iff.mp hdrained
  rw [drain_eq_assemble fun _ => hpending]
  refine ⟨hsound.result_assemble_of_empty hring, hsound.assemble, ?_⟩
  rw [waiting, hsound.toList_assemble, pending_assemble, hring, hpending, List.drop_nil]
  rfl

theorem Sound.drain_of_queued (hsound : Sound config reader)
    (hsize : frame.payload.length ≤ config.effectiveMaxPayload)
    (hring : reader.ring.toList = frame.wire config.protocol) (hpending : reader.pending = []) :
    reader.drain.1 = .ok (some frame) ∧ Sound config reader.drain.2 ∧
      reader.drain.2.waiting = [] := by
  have hfield := Nat.le_trans hsize config.effectiveMaxPayload_le_maxLength
  have hlook : config.look reader.ring.toList =
      .found frame (frame.wire config.protocol).length := by
    rw [hring, FrameConfig.look, Frame.look_wire_alone hsize hfield]
  rw [drain_eq_assemble fun _ => hpending]
  refine ⟨?_, hsound.assemble, ?_⟩
  · rw [hsound.result_assemble, hlook]
    rfl
  · rw [waiting, hsound.toList_assemble, pending_assemble, hlook, hring, hpending,
      List.append_nil]
    exact List.drop_length

/-- Exactly one frame that waits for an empty queue is fed whole, found and used up. -/
theorem Sound.drain_of_pending (hvalid : config.validate = .ok ()) (hsound : Sound config reader)
    (hsize : frame.payload.length ≤ config.effectiveMaxPayload) (hring : reader.ring.toList = [])
    (hpending : reader.pending = frame.wire config.protocol) :
    reader.drain.1 = .ok (some frame) ∧ Sound config reader.drain.2 ∧
      reader.drain.2.waiting = [] := by
  have hnone := hsound.result_assemble_of_empty hring
  have hempty : reader.assemble.2.ring.toList = [] := by
    rw [hsound.toList_assemble, hring, List.drop_nil]
  have hne : reader.pending ≠ [] := hpending ▸ frame.wire_ne_nil config.protocol
  have hfits : reader.pending.length ≤ reader.assemble.2.ring.free := by
    rw [Ring.free_of_toList_eq_nil hempty, hsound.assemble.capacity, hpending]
    exact FrameConfig.length_wire_le_ringCapacity hvalid hsize
  have hpositive := List.length_pos_iff.mpr hne
  obtain ⟨fed, hfeeds, hdrain⟩ := drain_of_room hnone hne (by omega)
  have hfed := hsound.assemble.feeds hfeeds
  have hqueued : fed.ring.toList = frame.wire config.protocol := by
    rw [hfeeds.queued, hempty, pending_assemble, List.take_of_length_le hfits, hpending,
      List.nil_append]
  have hrest : fed.pending = [] := by
    rw [hfeeds.pending, pending_assemble, List.drop_of_length_le hfits]
  rw [hdrain]
  exact hfed.drain_of_queued hsize hqueued hrest

theorem Sound.readFrame_of_chunk (hvalid : config.validate = .ok ()) (hsound : Sound config reader)
    (hdrained : reader.waiting = []) (hsize : frame.payload.length ≤ config.effectiveMaxPayload)
    {link : Link} {rest : List Arrival} (hopened : link.closed = false)
    (hnext : link.arrivals = .chunk (frame.wire config.protocol) :: rest) :
    ∃ next, reader.readFrame link = (.ok (some frame), next, { link with arrivals := rest }) ∧
      Sound config next ∧ next.waiting = [] := by
  obtain ⟨hsilent, hafter, hnothing⟩ := hsound.drain_of_drained hdrained
  have hroom : (frame.wire config.protocol).length ≤ reader.drain.2.room link.kind :=
    Nat.le_trans (FrameConfig.length_wire_le_ringCapacity hvalid hsize) (hafter.le_room _)
  have hreceive := Link.receive_of_chunk hopened hnext hroom
  have hholding := hafter.holding (frame.wire config.protocol)
  obtain ⟨hfound, hend⟩ := hholding.drain_of_pending hvalid hsize
    (List.append_eq_nil_iff.mp hnothing).1 rfl
  refine ⟨_, ?_, hend⟩
  rw [readFrame_of_octets hsilent (frame.wire_ne_nil config.protocol) hreceive, hfound]

end

end Reader

namespace Endpoint

/-- An endpoint that has written so many frames and holds nothing of what it received. -/
structure Ready (config : FrameConfig) (written : Nat) (endpoint : Endpoint) : Prop where
  sound : endpoint.reader.Sound config
  drained : endpoint.reader.waiting = []
  configured : endpoint.writer.config = config
  numbered : endpoint.writer.nextSeq = UInt8.ofNat written
  takes : endpoint.link.Takes config.ringCapacity

section
variable {config : FrameConfig} {written : Nat} {endpoint : Endpoint}

theorem exists_create (hvalid : config.validate = .ok ()) {link : Link}
    (htakes : link.Takes config.ringCapacity) :
    ∃ endpoint, create link config = .ok endpoint ∧ endpoint.Ready config 0 ∧
      endpoint.link = link := by
  obtain ⟨reader, hreader, hsound, hdrained, -⟩ := Session.exists_create hvalid
  refine ⟨⟨link, reader, { config }⟩, ?_, ⟨hsound, hdrained, rfl, rfl, htakes⟩, rfl⟩
  rw [create, hreader, Writer.create, hvalid]
  rfl

theorem exists_of_create {link : Link} (h : create link config = .ok endpoint) :
    config.validate = .ok () ∧ endpoint.link = link ∧ endpoint.writer = { config } ∧
      endpoint.maxPayload = config.effectiveMaxPayload := by
  cases hvalid : config.validate with
  | error cause =>
      rw [create, Reader.create, hvalid] at h
      cases h
  | ok valid =>
      obtain ⟨reader, hreader, hsound, -⟩ := Session.exists_create hvalid
      rw [create, hreader, Writer.create, hvalid] at h
      cases h
      exact ⟨rfl, rfl, rfl, by rw [Endpoint.maxPayload, Reader.maxPayload, hsound.configured]⟩

theorem Ready.maxPayload (h : endpoint.Ready config written) :
    endpoint.maxPayload = config.effectiveMaxPayload := by
  rw [Endpoint.maxPayload, Reader.maxPayload, h.sound.configured]

theorem Ready.arrive (h : endpoint.Ready config written) (arrival : Arrival) :
    (endpoint.arrive arrival).Ready config written :=
  ⟨h.sound, h.drained, h.configured, h.numbered, h.takes⟩

theorem Ready.write_of_le (hvalid : config.validate = .ok ()) (h : endpoint.Ready config written)
    (topic : UInt8) {payload : Bytes} (hsize : payload.length ≤ config.effectiveMaxPayload) :
    ∃ next, endpoint.write topic payload = (.ok payload.length, next) ∧
      next.Ready config (written + 1) ∧
      next.link = { endpoint.link with
        sent := endpoint.link.sent.push
          (Frame.wire config.protocol ⟨topic, UInt8.ofNat written, payload⟩) } := by
  have hmax : payload.length ≤ endpoint.writer.maxPayload := by
    rw [Writer.maxPayload, h.configured]
    exact hsize
  have hwire : endpoint.wire topic payload =
      Frame.wire config.protocol ⟨topic, UInt8.ofNat written, payload⟩ := by
    rw [wire, h.configured, h.numbered]
  have hfits : (endpoint.wire topic payload).length ≤ config.ringCapacity :=
    hwire ▸ FrameConfig.length_wire_le_ringCapacity hvalid hsize
  have hwrites := endpoint.writes_write topic payload
  refine ⟨_, hwrites.of_takes hmax (h.takes _ hfits), ?_, by rw [hwire]⟩
  refine ⟨h.sound, h.drained, h.configured, ?_, h.takes⟩
  change endpoint.writer.nextSeq + 1 = _
  rw [h.numbered]
  simp

theorem Ready.write_of_lt (h : endpoint.Ready config written) (topic : UInt8) {payload : Bytes}
    (hlong : config.effectiveMaxPayload < payload.length) :
    ∃ next, endpoint.write topic payload =
        (.error (.payloadTooLarge payload.length config.effectiveMaxPayload), next) ∧
      next.Ready config written ∧ next.link = endpoint.link := by
  have hmax : endpoint.writer.maxPayload = config.effectiveMaxPayload := by
    rw [Writer.maxPayload, h.configured]
  have hwrites := (endpoint.writes_write topic payload).of_lt (hmax ▸ hlong)
  rw [hmax] at hwrites
  exact ⟨_, hwrites, ⟨h.sound, h.drained, h.configured, h.numbered, h.takes⟩, rfl⟩

theorem Ready.read_of_nil (h : endpoint.Ready config written)
    (hnone : endpoint.link.arrivals = []) :
    ∃ next, endpoint.read = (.ok none, next) ∧ next.Ready config written ∧
      next.link = endpoint.link := by
  obtain ⟨hsilent, hsound, hdrained⟩ := h.sound.drain_of_drained h.drained
  have hreceive := h.takes.receive_of_nil hnone (endpoint.reader.drain.2.room endpoint.link.kind)
  refine ⟨⟨endpoint.link, endpoint.reader.drain.2, endpoint.writer⟩, ?_,
    ⟨hsound, hdrained, h.configured, h.numbered, h.takes⟩, rfl⟩
  rw [Endpoint.read, Reader.readFrame_of_silence hsilent hreceive]

theorem Ready.read_of_cons (hvalid : config.validate = .ok ()) (h : endpoint.Ready config written)
    {frame : Frame} (hsize : frame.payload.length ≤ config.effectiveMaxPayload)
    {rest : List Arrival}
    (hnext : endpoint.link.arrivals = .chunk (frame.wire config.protocol) :: rest) :
    ∃ next, endpoint.read = (.ok (some frame), next) ∧ next.Ready config written ∧
      next.link = { endpoint.link with arrivals := rest } := by
  obtain ⟨reader, hread, hsound, hdrained⟩ :=
    h.sound.readFrame_of_chunk hvalid h.drained hsize h.takes.opened hnext
  refine ⟨⟨{ endpoint.link with arrivals := rest }, reader, endpoint.writer⟩, ?_,
    ⟨hsound, hdrained, h.configured, h.numbered, h.takes⟩, rfl⟩
  rw [Endpoint.read, hread]

end

namespace Pair

theorem Side.other_other (side : Side) : side.other.other = side := by
  cases side <;> rfl

theorem Side.eq_or_other (side either : Side) : either = side ∨ either = side.other := by
  cases side <;> cases either <;> simp [Side.other]

theorem Side.other_ne (side : Side) : side.other ≠ side := by
  cases side <;> nofun

section
variable (pair : Pair) (side : Side) (endpoint : Endpoint)

@[simp] theorem get_set : (pair.set side endpoint).get side = endpoint := by
  cases side <;> rfl

@[simp] theorem get_set_other : (pair.set side endpoint).get side.other = pair.get side.other := by
  cases side <;> rfl

@[simp] theorem get_other_set : (pair.set side.other endpoint).get side = pair.get side := by
  cases side <;> rfl

theorem set_get : pair.set side (pair.get side) = pair := by
  cases side <;> rfl

end

section
variable {pair : Pair} {side : Side} {next : Endpoint} {topic : UInt8} {payload : Bytes}
  {result : Except FrameError Nat}

theorem write_of_unsent (hwrite : (pair.get side).write topic payload = (result, next))
    (hlink : next.link = (pair.get side).link) :
    pair.write side topic payload = (result, pair.set side next) := by
  have hnothing : next.link.sent.toList.drop (pair.get side).link.sent.size = [] := by
    rw [hlink]
    exact List.drop_length
  rw [write, hwrite]
  dsimp only
  rw [carry, get_set, hnothing, List.foldl_nil, set_get]

/-- What an end sends is the next chunk to arrive at the other. -/
theorem write_of_sent {data : Bytes}
    (hwrite : (pair.get side).write topic payload = (result, next))
    (hlink : next.link = { (pair.get side).link with
      sent := (pair.get side).link.sent.push data }) :
    pair.write side topic payload = (result,
      (pair.set side next).set side.other ((pair.get side.other).arrive (.chunk data))) := by
  have hchunk : next.link.sent.toList.drop (pair.get side).link.sent.size = [data] := by
    rw [hlink, Array.toList_push]
    exact List.drop_left
  rw [write, hwrite]
  dsimp only
  rw [carry, get_set, hchunk, get_set_other, List.foldl_cons, List.foldl_nil]

end
end Pair

end Endpoint
end TopicBridge
