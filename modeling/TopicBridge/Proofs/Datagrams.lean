import TopicBridge.Proofs.Fitting
import TopicBridge.Proofs.Moves
import TopicBridge.Proofs.Passage

/-! Frames on a socket, which takes messages up to a size that no writer knows of: what a writer
accepts fits one message only if the bound on its longest frame does. A frame that does not fit is
refused and leaves the socket as it was, and one that was sent is received whole. -/
namespace TopicBridge

/-- Without a zero in the payload nearly the whole bound is used up. -/
theorem Frame.le_length_wire_replicate (size : Nat) :
    size + 6 + (size - 1) / 254 + 2 ≤
      (Frame.wire .cobs ⟨2, 0, List.replicate size 1⟩).length := by
  have hclean : (0 : UInt8) ∉ List.replicate size 1 := by simp [List.mem_replicate]
  have hstuff := Cobs.le_length_stuff (record_ne_nil ⟨2, 0, List.replicate size 1⟩)
    (List.suffix_append _ _) hclean
  rw [length_record, List.length_replicate] at hstuff
  rw [wire, List.length_append, List.length_singleton]
  omega

theorem FrameConfig.all_fit_iff (config : FrameConfig) :
    (∀ frame : Frame, frame.payload.length ≤ config.effectiveMaxPayload →
      (frame.wire config.protocol).length ≤ Link.maxDatagram) ↔
    config.protocol.maxWireLength config.effectiveMaxPayload ≤ Link.maxDatagram := by
  constructor
  · intro hfit
    have hlongest := hfit ⟨2, 0, List.replicate config.effectiveMaxPayload 1⟩
      (Nat.le_of_eq List.length_replicate)
    have hmax : Link.maxDatagram = 65507 := rfl
    cases hprotocol : config.protocol with
    | px4 =>
        rw [hprotocol, Frame.length_wire_px4, List.length_replicate] at hlongest
        simp only [Protocol.maxWireLength, Protocol.headerLength]
        omega
    | cobs =>
        have hused := Frame.le_length_wire_replicate config.effectiveMaxPayload
        rw [hprotocol] at hlongest
        simp only [Protocol.maxWireLength, Protocol.stuffedMax, Protocol.headerLength]
        omega
  · intro hbound frame hsize
    calc (frame.wire config.protocol).length
        ≤ config.protocol.maxWireLength frame.payload.length := Frame.length_wire_le _ _
      _ ≤ config.protocol.maxWireLength config.effectiveMaxPayload :=
          Protocol.maxWireLength_mono _ hsize
      _ ≤ Link.maxDatagram := hbound

namespace Endpoint

/-- What a writer of the configuration and an open socket with a way to the other end stay. -/
structure OnSocket (config : FrameConfig) (endpoint : Endpoint) : Prop where
  config : endpoint.writer.config = config
  kind : endpoint.link.kind = .datagram
  limit : endpoint.link.limit = some Link.maxDatagram
  opened : endpoint.link.closed = false
  routed : endpoint.link.sendFault = none
  sent : ∀ data ∈ endpoint.link.sent, data.length ≤ Link.maxDatagram

section
variable {config : FrameConfig} {endpoint : Endpoint}

theorem OnSocket.refusal (h : endpoint.OnSocket config) (length : Nat) :
    endpoint.link.refusal length =
      if length ≤ Link.maxDatagram then none else some (.io .messageTooLong) := by
  rw [Link.refusal, h.opened, h.routed, h.limit]
  by_cases hfits : length ≤ Link.maxDatagram
  · simp [hfits, Nat.not_lt.mpr hfits]
  · simp [hfits, Nat.lt_of_not_le hfits]

theorem OnSocket.write (h : endpoint.OnSocket config) (topic : UInt8) (payload : Bytes) :
    (endpoint.write topic payload).2.OnSocket config := by
  have hwrites := endpoint.writes_write topic payload
  generalize endpoint.write topic payload = answer at hwrites
  have ⟨hconfig, hkind, hlimit, hopened, hrouted, hsent⟩ := h
  cases hwrites with
  | tooLong | refused => exact ⟨hconfig, hkind, hlimit, hopened, hrouted, hsent⟩
  | written _ htakes =>
      refine ⟨hconfig, hkind, hlimit, hopened, hrouted, ?_⟩
      intro data hdata
      rcases Array.mem_push.mp hdata with hold | rfl
      · exact hsent data hold
      · rw [h.refusal] at htakes
        by_contra hlong
        simp [hlong] at htakes

theorem OnSocket.read (h : endpoint.OnSocket config) : endpoint.read.2.OnSocket config := by
  obtain ⟨arrivals, hlink⟩ := endpoint.reader.exists_arrivals_readFrame endpoint.link
  have hnext : endpoint.read.2.link = { endpoint.link with arrivals } := hlink
  exact ⟨h.config, by rw [hnext]; exact h.kind, by rw [hnext]; exact h.limit,
    by rw [hnext]; exact h.opened, by rw [hnext]; exact h.routed, by rw [hnext]; exact h.sent⟩

/-- Nobody but the endpoint itself can close the socket or cut it off from the other end. -/
theorem OnSocket.play (h : endpoint.OnSocket config) {moves : List Move}
    (harrivals : ∀ outside, .outside outside ∈ moves → ∃ arrival, outside = .arrive arrival) :
    (endpoint.play moves).2.OnSocket config := by
  induction moves generalizing endpoint with
  | nil => exact h
  | cons move moves ih =>
      have hrest : ∀ outside, .outside outside ∈ moves → ∃ arrival, outside = .arrive arrival :=
        fun outside hmem => harrivals outside (List.mem_cons_of_mem _ hmem)
      cases move with
      | write topic payload => exact ih (h.write topic payload) hrest
      | read => exact ih h.read hrest
      | outside outside =>
          obtain ⟨arrival, rfl⟩ := harrivals outside List.mem_cons_self
          exact ih ⟨h.config, h.kind, h.limit, h.opened, h.routed, h.sent⟩ hrest

theorem OnSocket.write_eq (h : endpoint.OnSocket config) (topic : UInt8) {payload : Bytes}
    (hsize : payload.length ≤ endpoint.writer.maxPayload) :
    endpoint.write topic payload =
      if (endpoint.wire topic payload).length ≤ Link.maxDatagram then
        (.ok payload.length,
         { endpoint with
           writer := endpoint.writer.advance payload.length
           link := { endpoint.link with
             sent := endpoint.link.sent.push (endpoint.wire topic payload) } })
      else
        (.error (.link (.io .messageTooLong)),
         { endpoint with writer := endpoint.writer.drop }) := by
  have hrefusal := h.refusal (endpoint.wire topic payload).length
  have hwrites := endpoint.writes_write topic payload
  by_cases hfits : (endpoint.wire topic payload).length ≤ Link.maxDatagram
  · rw [if_pos hfits] at hrefusal ⊢
    exact hwrites.of_takes hsize hrefusal
  · rw [if_neg hfits] at hrefusal ⊢
    exact hwrites.of_refusal hsize hrefusal

theorem onSocket_create (hcreate : create (.udp none) config = .ok endpoint) :
    endpoint.OnSocket config := by
  obtain ⟨-, hlink, hwriter, -⟩ := exists_of_create hcreate
  refine ⟨by rw [hwriter], ?_, ?_, ?_, ?_, ?_⟩ <;> rw [hlink]
  · rfl
  · rfl
  · rfl
  · rfl
  · exact fun data hnone => absurd hnone (Array.not_mem_empty data)

/-- A payload that the writer accepts is sent on a socket if its frame fits a message, and is
refused by the socket if not, with the next number and the link as they were. All accepted frames
fit exactly if the bound on the longest of them does. What was sent is received whole. -/
theorem accepted_sent_iff_fits (hcreate : create (.udp none) config = .ok endpoint) :
    ((∀ frame : Frame, frame.payload.length ≤ config.effectiveMaxPayload →
        (frame.wire config.protocol).length ≤ Link.maxDatagram) ↔
      config.protocol.maxWireLength config.effectiveMaxPayload ≤ Link.maxDatagram) ∧
    ∀ moves : List Move,
      (∀ outside, .outside outside ∈ moves → ∃ arrival, outside = .arrive arrival) →
      let now := (endpoint.play moves).2
      now.writer.maxPayload = config.effectiveMaxPayload ∧
      (∀ topic payload, payload.length ≤ now.writer.maxPayload →
        now.wire topic payload =
          Frame.wire config.protocol ⟨topic, now.writer.nextSeq, payload⟩ ∧
        now.write topic payload =
          if (now.wire topic payload).length ≤ Link.maxDatagram then
            (.ok payload.length,
             { now with
               writer := now.writer.advance payload.length
               link := { now.link with sent := now.link.sent.push (now.wire topic payload) } })
          else
            (.error (.link (.io .messageTooLong)), { now with writer := now.writer.drop })) ∧
      ∀ data ∈ now.link.sent, ∀ (peer : Reader) (link : Link) (rest : List Arrival),
        link.kind = .datagram → link.closed = false → link.arrivals = .chunk data :: rest →
        link.receive (peer.room link.kind) = (.ok data, { link with arrivals := rest }) := by
  refine ⟨config.all_fit_iff, fun moves harrivals => ?_⟩
  have hnow := (onSocket_create hcreate).play harrivals
  refine ⟨by rw [Writer.maxPayload, hnow.config], ?_, ?_⟩
  · intro topic payload hsize
    exact ⟨by rw [wire, hnow.config], hnow.write_eq topic hsize⟩
  · intro data hdata peer link rest hkind hopened hnext
    have hroom : data.length ≤ peer.room link.kind := by
      rw [hkind]
      exact Nat.le_trans (hnow.sent data hdata) (Nat.le_max_right _ _)
    exact Link.receive_of_chunk hopened hnext hroom

end
end Endpoint

/-- The largest payload that the length field allows, in a queue that just holds its frame. -/
def FrameConfig.widest : FrameConfig := { maxPayload := 65535, ringCapacity := 65544 }

theorem FrameConfig.effectiveMaxPayload_widest : widest.effectiveMaxPayload = 65535 := rfl

/-- The longest frame that fits is sent, the next longer one is not. -/
theorem Endpoint.accepted_sent_iff_fits_widest :
    ∃ endpoint, Endpoint.create (.udp none) .widest = .ok endpoint ∧
      let now := (endpoint.play [.write 2 [], .read, .outside (.arrive (.chunk [1]))]).2
      (now.write 5 (List.replicate 65498 7)).1 = .ok 65498 ∧
      now.write 5 (List.replicate 65499 7) =
        (.error (.link (.io .messageTooLong)), { now with writer := now.writer.drop }) := by
  obtain ⟨endpoint, hcreate⟩ : ∃ endpoint, Endpoint.create (.udp none) .widest = .ok endpoint :=
    ⟨_, rfl⟩
  obtain ⟨-, hmoves⟩ := Endpoint.accepted_sent_iff_fits hcreate
  obtain ⟨hmax, hwrite, -⟩ := hmoves [.write 2 [], .read, .outside (.arrive (.chunk [1]))] (by simp)
  rw [FrameConfig.effectiveMaxPayload_widest] at hmax
  refine ⟨endpoint, hcreate, ?_, ?_⟩
  · obtain ⟨hwire, hresult⟩ := hwrite 5 (List.replicate 65498 7) (by
      rw [List.length_replicate, hmax]
      omega)
    rw [hresult, if_pos, List.length_replicate]
    rw [hwire, FrameConfig.widest, Frame.length_wire_px4, List.length_replicate]
    decide
  · obtain ⟨hwire, hresult⟩ := hwrite 5 (List.replicate 65499 7) (by
      rw [List.length_replicate, hmax]
      omega)
    rw [hresult, if_neg]
    rw [hwire, FrameConfig.widest, Frame.length_wire_px4, List.length_replicate]
    decide

/-- A usable configuration accepts payloads whose frames no socket takes. -/
theorem FrameConfig.not_every_accepted_fits :
    ¬ ∀ (config : FrameConfig) (endpoint : Endpoint) (topic : UInt8) (payload : Bytes),
      Endpoint.create (.udp none) config = .ok endpoint →
      payload.length ≤ endpoint.writer.maxPayload →
      (endpoint.wire topic payload).length ≤ Link.maxDatagram := by
  intro hclaim
  obtain ⟨endpoint, hcreate⟩ : ∃ endpoint, Endpoint.create (.udp none) .widest = .ok endpoint :=
    ⟨_, rfl⟩
  obtain ⟨-, -, hwriter, -⟩ := Endpoint.exists_of_create hcreate
  have hsize : (List.replicate 65499 (7 : UInt8)).length ≤ endpoint.writer.maxPayload := by
    rw [List.length_replicate, hwriter, Writer.maxPayload, effectiveMaxPayload_widest]
    omega
  have hfits := hclaim .widest endpoint 5 _ hcreate hsize
  rw [Endpoint.wire, show endpoint.writer.config.protocol = .px4 by rw [hwriter]; rfl,
    Frame.length_wire_px4, List.length_replicate] at hfits
  exact absurd hfits (by decide)

end TopicBridge
