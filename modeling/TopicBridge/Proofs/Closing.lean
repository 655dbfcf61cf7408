import TopicBridge.Proofs.Lifetime
import TopicBridge.Proofs.Reading
import TopicBridge.Proofs.Writing

/-! Open and closed links. While nobody closes a link its reads fail only for a while; once it is
closed nothing opens it again and nothing more is sent. -/
namespace TopicBridge

namespace Link

/-- Open, and no receive that is to come reports that it was closed. -/
structure Unbroken (link : Link) : Prop where
  opened : link.closed = false
  quiet : .fault .closed ∉ link.arrivals

section
variable {link : Link}

theorem Unbroken.receive (h : link.Unbroken) (room : Nat) :
    (link.receive room).1 ≠ .error .closed ∧ (link.receive room).2.Unbroken := by
  have hmeets := link.meets_receive room
  generalize link.receive room = receipt at hmeets ⊢
  cases hmeets with
  | closed hclosed =>
      rw [h.opened] at hclosed
      cases hclosed
  | nothing => exact ⟨nofun, h⟩
  | fault _ hfault =>
      have hquiet := h.quiet
      rw [hfault, List.mem_cons, not_or] at hquiet
      refine ⟨?_, h.opened, hquiet.2⟩
      rintro ⟨⟩
      exact hquiet.1 rfl
  | chunk _ hchunk =>
      have hquiet := h.quiet
      rw [hchunk, List.mem_cons, not_or] at hquiet
      refine ⟨nofun, h.opened, ?_⟩
      rw [List.mem_append, not_or]
      refine ⟨?_, hquiet.2⟩
      cases link.kind with
      | datagram => exact List.not_mem_nil
      | stream =>
          rw [leftover]
          split <;> simp

end
end Link

namespace Reader
variable {reader after : Reader} {result : Except FrameError (Option Frame)} {cause : FrameError}

theorem isTransient_of_not_foreign (h : Frame.foreign cause = false) :
    cause.isTransient = true := by
  cases cause with
  | link | config => cases h
  | payloadTooLarge | crcMismatch | stuffing | truncated | lengthMismatch => rfl

/-- What draining reports passes: lost octets or a full queue. -/
theorem Drains.isTransient (h : Drains reader result after) (hresult : result = .error cause) :
    cause.isTransient = true := by
  induction h with
  | looked _ =>
      apply isTransient_of_not_foreign
      cases hforeign : Frame.foreign cause with
      | false => rfl
      | true =>
          rw [assemble_fst, Frame.decode_fst] at hresult
          exact absurd hresult (Frame.look_ne_foreign hforeign)
  | full _ _ _ =>
      cases hresult
      rfl
  | fed _ _ _ _ _ ih => exact ih hresult

/-- On a link that nobody has closed a read fails only for a while, and leaves it so. -/
theorem isTransient_readFrame (reader : Reader) {link : Link} (h : link.Unbroken) :
    (∀ cause, (reader.readFrame link).1 = .error cause → cause.isTransient = true) ∧
      (reader.readFrame link).2.2.Unbroken := by
  have hattempts := reader.attempts_readFrame link
  generalize reader.readFrame link = answer at hattempts
  cases hattempts with
  | drained _ => exact ⟨fun _ => reader.drains_drain.isTransient, h⟩
  | @failed fault next _ hreceive =>
      obtain ⟨hopen, hnext⟩ := h.receive (reader.drain.2.room link.kind)
      rw [hreceive] at hopen hnext
      refine ⟨?_, hnext⟩
      rintro _ ⟨⟩
      cases fault with
      | closed => exact absurd rfl hopen
      | _ => rfl
  | silent _ hreceive =>
      have hnext := (h.receive (reader.drain.2.room link.kind)).2
      rw [hreceive] at hnext
      exact ⟨nofun, hnext⟩
  | received _ _ hreceive =>
      have hnext := (h.receive (reader.drain.2.room link.kind)).2
      rw [hreceive] at hnext
      exact ⟨fun _ => (Reader.drains_drain _).isTransient, hnext⟩

end Reader

namespace Link
variable {link : Link}

theorem refusal_of_closed (h : link.closed = true) (length : Nat) :
    link.refusal length = some .closed := by
  rw [refusal, if_pos h]

/-- A send that comes to something adds it to what was sent over an open link. -/
inductive Sends (link : Link) : Link → Prop
  | nothing : Sends link link
  | added (data : Bytes) : link.closed = false →
      Sends link { link with sent := link.sent.push data }

variable {next : Link}

theorem Sends.closed (h : link.Sends next) : next.closed = link.closed := by
  cases h <;> rfl

theorem Sends.unbroken (h : link.Sends next) (hlink : link.Unbroken) : next.Unbroken := by
  cases h with
  | nothing => exact hlink
  | added => exact ⟨hlink.opened, hlink.quiet⟩

theorem Sends.eq_of_closed (h : link.Sends next) (hclosed : link.closed = true) : next = link := by
  cases h with
  | nothing => rfl
  | added _ hopen =>
      rw [hclosed] at hopen
      cases hopen

end Link

namespace Endpoint
variable {endpoint : Endpoint}

theorem write_of_closed (h : endpoint.link.closed = true) (topic : UInt8) {payload : Bytes}
    (hfits : payload.length ≤ endpoint.writer.maxPayload) :
    endpoint.write topic payload =
      (.error (.link .closed), { endpoint with writer := endpoint.writer.drop }) := by
  have hwrites := endpoint.writes_write topic payload
  exact hwrites.of_refusal hfits (Link.refusal_of_closed h _)

theorem sends_write (endpoint : Endpoint) (topic : UInt8) (payload : Bytes) :
    endpoint.link.Sends (endpoint.write topic payload).2.link := by
  have hwrites := endpoint.writes_write topic payload
  generalize endpoint.write topic payload = answer at hwrites ⊢
  cases hwrites with
  | tooLong | refused => exact .nothing
  | written _ htakes =>
      refine .added _ (eq_false_of_ne_true fun hclosed => ?_)
      cases (Link.refusal_of_closed hclosed _).symm.trans htakes

end Endpoint

theorem Outside.closed_change (outside : Outside) {link : Link} (h : link.closed = true) :
    (outside.change link).closed = true := by
  cases outside with
  | arrive | failSend | failClose => exact h
  | close => rfl

theorem Outside.sent_change (outside : Outside) (link : Link) :
    (outside.change link).sent = link.sent := by
  cases outside <;> rfl

end TopicBridge
