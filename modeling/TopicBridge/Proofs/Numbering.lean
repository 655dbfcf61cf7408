import TopicBridge.Proofs.Closing
import TopicBridge.Proofs.Exchange

/-! A writer on its link through any sequence of writes, while the link may fail and recover between
them. A write gets its frame onto the link or changes nothing but the count of failed writes, so
what is on the link are the frames of the successful writes, numbered without a gap. -/
namespace TopicBridge

/-- A write that came to nothing. -/
def Event.failed : Event → Bool
  | .write _ _ (.error _) => true
  | _ => false

structure Outbox where
  writer : Writer
  link : Link
  log : List Event := []

namespace Outbox

inductive Move where
  | write (topic : UInt8) (payload : Bytes)
  | outside (outside : Outside)

def after (outbox : Outbox) (writer : Writer) (link : Link) (event : Event) : Outbox :=
  { writer, link, log := outbox.log ++ [event] }

def move (outbox : Outbox) : Move → Outbox
  | .write topic payload =>
      let answer := outbox.writer.write outbox.link topic payload
      outbox.after answer.2.1 answer.2.2 (.write topic payload answer.1)
  | .outside outside => { outbox with link := outside.change outbox.link }

def run (outbox : Outbox) : List Move → Outbox
  | [] => outbox
  | move :: moves => (outbox.move move).run moves

def written (outbox : Outbox) : List (UInt8 × Bytes) := outbox.log.flatMap Event.written

def failures (outbox : Outbox) : Nat := outbox.log.countP Event.failed

def tally (messages : List (UInt8 × Bytes)) (failures : Nat) : Stats where
  frames := messages.length
  bytes := (messages.flatMap Prod.snd).length
  dropped := failures

/-- The writer stands behind what was written, and that is what was sent since the link was
`before`. -/
structure Stands (config : FrameConfig) (before : Link) (outbox : Outbox) : Prop where
  configured : outbox.writer.config = config
  next : outbox.writer.nextSeq = UInt8.ofNat outbox.written.length
  stats : outbox.writer.stats = tally outbox.written outbox.failures
  sent : outbox.link.sent.toList =
    before.sent.toList ++ (numbered outbox.written).map (Frame.wire config.protocol)
  fits : ∀ message ∈ outbox.written, message.2.length ≤ config.effectiveMaxPayload

section
variable {config : FrameConfig} {before : Link} {outbox : Outbox} {topic : UInt8} {payload : Bytes}

@[simp] theorem written_after (writer : Writer) (link : Link) (event : Event) :
    (outbox.after writer link event).written = outbox.written ++ event.written := by
  simp [written, after]

@[simp] theorem failures_after (writer : Writer) (link : Link) (event : Event) :
    (outbox.after writer link event).failures =
      outbox.failures + if event.failed then 1 else 0 := by
  simp [failures, after, List.countP_append, List.countP_singleton]

theorem tally_concat (messages : List (UInt8 × Bytes)) (failures : Nat) (topic : UInt8)
    (payload : Bytes) :
    tally (messages ++ [(topic, payload)]) failures =
      (tally messages failures).frame payload.length := by
  simp [tally, Stats.frame]

theorem Stands.failed (h : Stands config before outbox) (cause : FrameError) :
    Stands config before
      (outbox.after outbox.writer.drop outbox.link (.write topic payload (.error cause))) := by
  refine ⟨h.configured, ?_, ?_, ?_, ?_⟩
  · rw [written_after, Event.written_of_error, List.append_nil]
    exact h.next
  · rw [written_after, failures_after, Event.written_of_error, List.append_nil]
    exact congrArg Stats.drop h.stats
  · rw [written_after, Event.written_of_error, List.append_nil]
    exact h.sent
  · rw [written_after, Event.written_of_error, List.append_nil]
    exact h.fits

theorem Stands.wire (h : Stands config before outbox) (topic : UInt8) (payload : Bytes) :
    outbox.writer.wire topic payload =
      Frame.wire config.protocol ⟨topic, UInt8.ofNat outbox.written.length, payload⟩ := by
  rw [Writer.wire, h.configured, h.next]

theorem Stands.succeeded (h : Stands config before outbox)
    (hsize : payload.length ≤ config.effectiveMaxPayload) :
    Stands config before
      (outbox.after (outbox.writer.advance payload.length)
        { outbox.link with sent := outbox.link.sent.push (outbox.writer.wire topic payload) }
        (.write topic payload (.ok payload.length))) := by
  refine ⟨h.configured, ?_, ?_, ?_, ?_⟩
  · rw [written_after, Event.written, List.length_append]
    show outbox.writer.nextSeq + 1 = _
    rw [h.next]
    simp
  · rw [written_after, failures_after, Event.written, tally_concat]
    exact congrArg (Stats.frame · payload.length) h.stats
  · show (outbox.link.sent.push _).toList = _
    rw [Array.toList_push, h.sent, h.wire, written_after, Event.written, numbered_concat,
      List.map_append, List.append_assoc]
    rfl
  · rw [written_after]
    exact List.forall_mem_append.mpr ⟨h.fits, List.forall_mem_singleton.mpr hsize⟩

theorem Stands.maxPayload (h : Stands config before outbox) :
    outbox.writer.maxPayload = config.effectiveMaxPayload := by
  rw [Writer.maxPayload, h.configured]

theorem Stands.move (h : Stands config before outbox) (move : Move) :
    Stands config before (outbox.move move) := by
  cases move with
  | write topic payload =>
      have hwrites := outbox.writer.writes_write outbox.link topic payload
      rw [Outbox.move]
      generalize outbox.writer.write outbox.link topic payload = answer at hwrites ⊢
      cases hwrites with
      | tooLong | refused => exact h.failed _
      | written hsize => exact h.succeeded (h.maxPayload ▸ hsize)
  | outside outside =>
      refine ⟨h.configured, h.next, h.stats, ?_, h.fits⟩
      show (outside.change outbox.link).sent.toList = _
      rw [outside.sent_change]
      exact h.sent

theorem Stands.run (h : Stands config before outbox) (moves : List Move) :
    Stands config before (outbox.run moves) := by
  induction moves generalizing outbox with
  | nil => exact h
  | cons move moves ih => exact ih (h.move move)

theorem Stands.encodeOnto (h : Stands config before outbox) (topic : UInt8)
    (hsize : payload.length ≤ outbox.writer.maxPayload) :
    Frame.encodeOnto config.protocol ⟨topic, outbox.writer.nextSeq, payload⟩ [] =
      (.ok (), outbox.writer.wire topic payload) := by
  rw [← h.configured]
  exact Writer.encodeOnto_of_le hsize topic

/-- A write fails for a payload over the limit and for a frame that the link refuses. -/
theorem fails_iff (writer : Writer) (link : Link) (topic : UInt8) (payload : Bytes) :
    (∃ cause, (writer.write link topic payload).1 = .error cause) ↔
      writer.maxPayload < payload.length ∨
        ∃ cause, (link.send (writer.wire topic payload)).1 = .error cause := by
  have hwrites := writer.writes_write link topic payload
  generalize writer.write link topic payload = answer at hwrites
  rw [Link.send]
  cases hwrites with
  | tooLong hlong => exact ⟨fun _ => .inl hlong, fun _ => ⟨_, rfl⟩⟩
  | refused hsize hrefusal =>
      rw [hrefusal]
      exact ⟨fun _ => .inr ⟨_, rfl⟩, fun _ => ⟨_, rfl⟩⟩
  | written hsize htakes =>
      rw [htakes]
      constructor
      · rintro ⟨cause, ⟨⟩⟩
      · rintro (hlong | ⟨cause, ⟨⟩⟩)
        exact absurd hlong (Nat.not_lt.mpr hsize)

theorem eq_of_fails {writer : Writer} {link : Link} {cause : FrameError}
    (h : (writer.write link topic payload).1 = .error cause) :
    (writer.write link topic payload).2 = (writer.drop, link) := by
  have hwrites := writer.writes_write link topic payload
  generalize writer.write link topic payload = answer at h hwrites
  cases hwrites with
  | tooLong | refused => rfl
  | written => cases h

end

/-- Whatever is written, and whatever becomes of the link in between, the link has got exactly the
encodings of the payloads whose writes succeeded, in order and numbered from zero on. The counters
say how many these are, how many octets they have and how many writes failed, and the next number
follows from the first of them. A write fails just for a payload over the limit and for a frame that
the link refuses; it then counts as dropped, and all else stays as it is. A payload within the limit
always encodes. -/
theorem sent_without_gap {config : FrameConfig} (hvalid : config.validate = .ok ()) :
    ∃ writer, Writer.create config = .ok writer ∧ ∀ (link : Link) (moves : List Move),
      let now := run { writer, link } moves
      now.link.sent.toList =
        link.sent.toList ++ (numbered now.written).map (Frame.wire config.protocol) ∧
      (∀ frame ∈ numbered now.written,
        Frame.encode config.protocol frame = .ok (frame.wire config.protocol)) ∧
      now.writer.stats =
        { frames := now.written.length
          bytes := (now.written.flatMap Prod.snd).length
          dropped := now.failures
          overflows := 0 } ∧
      now.writer.nextSeq.toNat = now.writer.stats.frames % 256 ∧
      ∀ topic payload,
        let answer := now.writer.write now.link topic payload
        ((∃ cause, answer.1 = .error cause) ↔
          now.writer.maxPayload < payload.length ∨
            ∃ cause, (now.link.send (now.writer.wire topic payload)).1 = .error cause) ∧
        (∀ cause, answer.1 = .error cause →
          answer.2 = ({ now.writer with
            stats := { now.writer.stats with dropped := now.writer.stats.dropped + 1 } },
            now.link)) ∧
        (payload.length ≤ now.writer.maxPayload →
          Frame.encodeOnto config.protocol ⟨topic, now.writer.nextSeq, payload⟩ [] =
            (.ok (), now.writer.wire topic payload)) := by
  refine ⟨{ config }, by rw [Writer.create, hvalid]; rfl, fun link moves => ?_⟩
  have hstart : Stands config link { writer := { config }, link } :=
    ⟨rfl, rfl, rfl, (List.append_nil _).symm, List.forall_mem_nil _⟩
  have h := hstart.run moves
  refine ⟨h.sent, ?_, h.stats, ?_, fun topic payload => ⟨fails_iff .., fun _ => eq_of_fails, ?_⟩⟩
  · intro frame hframe
    have hsize := h.fits _ (mem_of_mem_numbered hframe)
    exact Frame.encode_eq_ok_iff.mpr
      ⟨Nat.le_trans hsize config.effectiveMaxPayload_le_maxLength, rfl⟩
  · rw [h.next, h.stats, UInt8.toNat_ofNat']
    rfl
  · exact h.encodeOnto topic

/-- A message, a failed send, a payload over the limit of three octets, and another message. -/
def recovering : List Move :=
  [.write 7 [1], .outside (.failSend (some (.writeTimeout 3 9))), .write 8 [],
    .outside (.failSend none), .write 2 [0, 0, 0, 0], .write 9 [2, 3, 4]]

theorem sent_without_gap_recovering :
    ∃ writer, Writer.create { ringCapacity := 12 } = .ok writer ∧
      let now := run { writer, link := .stream } recovering
      now.link.sent.toList =
        [Frame.wire .px4 ⟨7, 0, [1]⟩, Frame.wire .px4 ⟨9, 1, [2, 3, 4]⟩] ∧
      now.writer.stats = { frames := 2, bytes := 4, dropped := 2, overflows := 0 } ∧
      (now.writer.write now.link 5 [0, 0, 0, 0]).2.2 = now.link := by
  have hvalid : FrameConfig.validate { ringCapacity := 12 } = .ok () := by decide
  obtain ⟨writer, hcreate, hwrites⟩ := sent_without_gap hvalid
  obtain rfl : writer = { config := { ringCapacity := 12 } } :=
    Except.ok.inj (hcreate.symm.trans rfl)
  obtain ⟨hsent, -, hstats, -, hnext⟩ := hwrites .stream recovering
  obtain ⟨hfails, hkept, -⟩ := hnext 5 [0, 0, 0, 0]
  have hwritten : (run { writer := { config := { ringCapacity := 12 } }, link := .stream }
      recovering).written = [(7, [1]), (9, [2, 3, 4])] := by decide +kernel
  have hfailures : (run { writer := { config := { ringCapacity := 12 } }, link := .stream }
      recovering).failures = 2 := by decide +kernel
  rw [hwritten] at hsent hstats
  rw [hfailures] at hstats
  obtain ⟨cause, hcause⟩ := hfails.mpr (.inl (by decide +kernel))
  exact ⟨_, hcreate, hsent, hstats, by rw [hkept cause hcause]⟩

end Outbox
end TopicBridge
