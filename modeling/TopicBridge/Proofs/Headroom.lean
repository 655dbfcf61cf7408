import TopicBridge.Proofs.Session

/-! Room in the queue. Where a look of a usable configuration waits, the queue is not full, so that
what is pending always gets into it and no draining gives the content of the queue up. -/
namespace TopicBridge
namespace Reader

/-- Draining `reader` comes to a look at `middle`. The looks before it were in vain, and after each
of them the queue took as much of what was pending as it had room for. -/
inductive Visits : Reader → Reader → Prop
  | here (reader : Reader) : Visits reader reader
  | fed {reader middle : Reader} {ring : Ring} : reader.assemble.1 = .ok none →
      reader.pending ≠ [] → reader.assemble.2.ring.free ≠ 0 →
      reader.assemble.2.ring.push reader.assemble.2.portion = .ok ring →
      Visits (reader.assemble.2.taking ring) middle → Visits reader middle

/-- A draining in which every look in vain leaves room, what is then pushed fits and is not lost,
and the end is a look, in vain only if nothing is pending any more. -/
structure Roomy (start : Reader) : Prop where
  passes : ∀ middle, Visits start middle → start.drain = middle.drain
  room : ∀ middle, Visits start middle → middle.assemble.1 = .ok none →
    middle.assemble.2.ring.isFull = false
  fits : ∀ middle, Visits start middle → middle.assemble.1 = .ok none →
    ∃ ring, middle.assemble.2.ring.push middle.assemble.2.portion = .ok ring ∧
      (middle.assemble.2.taking ring).waiting = middle.assemble.2.waiting
  ends : ∃ last, Visits start last ∧ start.drain = last.assemble ∧
    (last.assemble.1 = .ok none → last.pending = [])

theorem overflows_assemble (reader : Reader) :
    reader.assemble.2.stats.overflows = reader.stats.overflows := by
  rw [assemble]
  dsimp only
  split <;> rfl

section
variable {config : FrameConfig} {start middle reader : Reader}

theorem Visits.drain_eq (h : Visits start middle) : start.drain = middle.drain := by
  induction h with
  | here => rfl
  | fed hnone hpending hroom hpush _ ih => exact (drain_of_push hnone hpending hroom hpush).trans ih

theorem Visits.sound (h : Visits start middle) (hsound : Sound config start) :
    Sound config middle := by
  induction h with
  | here => exact hsound
  | @fed reader _ _ _ _ _ hpush _ ih =>
      apply ih
      obtain ⟨ring, hother, hfeeds⟩ := reader.assemble.2.exists_push_portion
      rw [hpush] at hother
      cases hother
      exact hsound.assemble.feeds hfeeds

theorem Visits.overflows (h : Visits start middle) :
    middle.stats.overflows = start.stats.overflows := by
  induction h with
  | here => rfl
  | @fed reader _ _ _ _ _ _ _ ih => exact ih.trans reader.overflows_assemble

/-- A draining goes on to a look that ends it. -/
theorem Sound.exists_last (hvalid : config.validate = .ok ()) (hsound : Sound config reader) :
    ∃ last, Visits reader last ∧ reader.drain = last.assemble ∧
      (last.assemble.1 = .ok none → last.pending = []) := by
  induction hn : reader.pending.length using Nat.strongRecOn generalizing reader with
  | ind n ih =>
      by_cases hstop : reader.assemble.1 = .ok none → reader.pending = []
      · exact ⟨reader, .here reader, drain_eq_assemble hstop, hstop⟩
      · obtain ⟨hnone, hpending⟩ := Classical.not_imp.mp hstop
        have hroom := hsound.free_assemble hvalid hnone
        obtain ⟨ring, hpush, hfeeds⟩ := reader.assemble.2.exists_push_portion
        have hshorter := hfeeds.length_lt (by rwa [pending_assemble]) hroom
        rw [pending_assemble, hn] at hshorter
        obtain ⟨last, hvisits, hdrain, hlast⟩ :=
          ih _ hshorter (hsound.assemble.feeds hfeeds) rfl
        refine ⟨last, .fed hnone hpending hroom hpush hvisits, ?_, hlast⟩
        rw [drain_of_push hnone hpending hroom hpush, hdrain]

theorem Sound.roomy (hvalid : config.validate = .ok ()) (hsound : Sound config reader) :
    reader.Roomy := by
  refine ⟨fun middle hvisits => hvisits.drain_eq, ?_, ?_, hsound.exists_last hvalid⟩
  · intro middle hvisits hnone
    have hroom := (hvisits.sound hsound).free_assemble hvalid hnone
    have hsum := middle.assemble.2.ring.length_add_free
    rw [Ring.isFull, beq_eq_false_iff_ne]
    omega
  · intro middle hvisits hnone
    obtain ⟨ring, hpush, hfeeds⟩ := middle.assemble.2.exists_push_portion
    exact ⟨ring, hpush, hfeeds.waiting⟩

theorem Sound.drain (hvalid : config.validate = .ok ()) (hsound : Sound config reader) :
    Sound config reader.drain.2 := by
  obtain ⟨last, hvisits, hdrain, -⟩ := hsound.exists_last hvalid
  rw [hdrain]
  exact (hvisits.sound hsound).assemble

theorem Sound.innocent_drain (hvalid : config.validate = .ok ()) (hsound : Sound config reader)
    (fault : LinkError) : reader.drain.1 ≠ .error (.link fault) := by
  obtain ⟨last, hvisits, hdrain, -⟩ := hsound.exists_last hvalid
  rw [hdrain]
  exact (hvisits.sound hsound).innocent_assemble fault

theorem Sound.overflows_drain (hvalid : config.validate = .ok ()) (hsound : Sound config reader) :
    reader.drain.2.stats.overflows = reader.stats.overflows := by
  obtain ⟨last, hvisits, hdrain, -⟩ := hsound.exists_last hvalid
  rw [hdrain, overflows_assemble, hvisits.overflows]

end
end Reader

namespace Session

/-- The readers that the next read drains: the one at rest, and the one that holds what was
received after draining that one in vain. -/
inductive Drains (session : Session) : Reader → Prop
  | resting : session.Drains session.reader
  | holding {data : Bytes} : session.reader.drain.1 = .ok none → data ≠ [] →
      (session.link.receive (session.reader.drain.2.room session.link.kind)).1 = .ok data →
      session.Drains (session.reader.drain.2.holding data)

/-- What every read keeps, whatever has arrived. -/
structure Unspilt (config : FrameConfig) (session : Session) : Prop where
  sound : session.reader.Sound config
  overflows : session.reader.stats.overflows = 0

section
variable {config : FrameConfig} {session : Session}

theorem Unspilt.holding (hvalid : config.validate = .ok ()) (h : Unspilt config session)
    (data : Bytes) : (session.reader.drain.2.holding data).Sound config :=
  (h.sound.drain hvalid).holding data

theorem Unspilt.roomy (hvalid : config.validate = .ok ()) (h : Unspilt config session)
    {start : Reader} (hdrains : session.Drains start) : start.Roomy := by
  cases hdrains with
  | resting => exact h.sound.roomy hvalid
  | holding => exact (h.holding hvalid _).roomy hvalid

theorem Unspilt.read (hvalid : config.validate = .ok ()) (h : Unspilt config session) :
    Unspilt config session.read := by
  have hdrained := h.sound.drain hvalid
  have hoverflows := (h.sound.overflows_drain hvalid).trans h.overflows
  have hattempts := session.reader.attempts_readFrame session.link
  rw [Session.read]
  generalize session.reader.readFrame session.link = answer at hattempts ⊢
  cases hattempts with
  | drained => exact ⟨hdrained, hoverflows⟩
  | failed => exact ⟨hdrained, hoverflows⟩
  | silent => exact ⟨hdrained, hoverflows⟩
  | @received data =>
      have hheld := h.holding hvalid data
      exact ⟨hheld.drain hvalid, (hheld.overflows_drain hvalid).trans hoverflows⟩

theorem Unspilt.reads (hvalid : config.validate = .ok ()) (h : Unspilt config session) (n : Nat) :
    Unspilt config (session.reads n) := by
  induction n with
  | zero => exact h
  | succ n ih => exact ih.read hvalid

/-- Only the link makes a read fail with a link error. -/
theorem Unspilt.receive_of_error (hvalid : config.validate = .ok ()) (h : Unspilt config session)
    {cause : LinkError}
    (herror : (session.reader.readFrame session.link).1 = .error (.link cause)) :
    session.reader.drain.1 = .ok none ∧
      (session.link.receive (session.reader.drain.2.room session.link.kind)).1 = .error cause := by
  have hattempts := session.reader.attempts_readFrame session.link
  generalize session.reader.readFrame session.link = answer at hattempts herror
  cases hattempts with
  | drained => exact absurd herror (h.sound.innocent_drain hvalid cause)
  | failed hnone hreceive =>
      cases herror
      exact ⟨hnone, by rw [hreceive]⟩
  | silent => cases herror
  | received => exact absurd herror ((h.holding hvalid _).innocent_drain hvalid cause)

theorem pending_of_none (session : Session)
    (hnone : (session.reader.readFrame session.link).1 = .ok none) :
    session.read.reader.pending = [] := by
  have hattempts := session.reader.attempts_readFrame session.link
  rw [Session.read]
  generalize session.reader.readFrame session.link = answer at hattempts hnone ⊢
  cases hattempts with
  | drained hsome => exact absurd hnone hsome
  | failed => cases hnone
  | silent hdrained => exact (Reader.drains_drain _).pending_eq_nil hdrained
  | received => exact (Reader.drains_drain _).pending_eq_nil hnone

end

/-- The queue of a usable configuration never overflows, whatever arrives on whatever link. Each
draining has room at all times and loses nothing to a full queue, so every link error of a read is
the link's own; a read in vain leaves nothing pending, and while something is pending no read asks
the link. -/
theorem reads_never_overflow {config : FrameConfig} (hvalid : config.validate = .ok ()) :
    ∃ reader, Reader.create config = .ok reader ∧ ∀ (link : Link) n,
      let session := reads { reader, link } n
      let drained := session.reader.drain
      session.reader.stats.overflows = 0 ∧
      (∀ start, session.Drains start → start.Roomy) ∧
      (∀ cause, (session.reader.readFrame session.link).1 = .error (.link cause) →
        drained.1 = .ok none ∧
          (session.link.receive (drained.2.room session.link.kind)).1 = .error cause) ∧
      ((session.reader.readFrame session.link).1 = .ok none → session.read.reader.pending = []) ∧
      (drained.2.pending ≠ [] → ∀ other : Link,
        session.reader.readFrame other = (drained.1, drained.2, other)) := by
  obtain ⟨reader, hcreate, hsound, -, hstats⟩ := exists_create hvalid
  refine ⟨reader, hcreate, ?_⟩
  intro link n
  have hstart : Unspilt config { reader, link } := ⟨hsound, by rw [hstats]⟩
  have h := hstart.reads hvalid n
  refine ⟨h.overflows, fun start => h.roomy hvalid, fun cause => h.receive_of_error hvalid,
    pending_of_none _, ?_⟩
  intro hpending other
  apply Reader.readFrame_of_ne_none
  intro hnone
  exact hpending ((Reader.drains_drain _).pending_eq_nil hnone)

end Session

/-- A datagram larger than the queue, with a length over the limit near its front, and a failure of
the link's own that names an overflow. -/
def Link.flood : Link :=
  { Link.datagram with
    arrivals := [.chunk [0x3E, 0x3E, 0x3E, 7, 0, 255, 255, 0, 0, 1, 1, 1, 1, 1, 0x3E, 0x3E, 0x3E, 9],
      .fault (.overflow 3 0)] }

theorem Session.reads_never_overflow_flood :
    ∃ reader, Reader.create { ringCapacity := 12 } = .ok reader ∧
      (reads { reader, link := .flood } 2).results =
        [.error (.payloadTooLarge 65535 3), .error (.link (.overflow 3 0))] ∧
      (reads { reader, link := .flood } 2).reader.stats.overflows = 0 ∧
      (reads { reader, link := .flood } 1).reader.drain.1 = .ok none := by
  have hvalid : FrameConfig.validate { ringCapacity := 12 } = .ok () := by decide
  obtain ⟨reader, hcreate, hreads⟩ := reads_never_overflow hvalid
  have hresults : (Reader.create { ringCapacity := 12 }).map (fun reader =>
      (reads { reader, link := .flood } 2).results) =
        .ok [.error (.payloadTooLarge 65535 3), .error (.link (.overflow 3 0))] := by
    decide +kernel
  rw [hcreate] at hresults
  have hread : (reads { reader, link := .flood } 2).results =
      [.error (.payloadTooLarge 65535 3), .error (.link (.overflow 3 0))] :=
    Except.ok.inj hresults
  obtain ⟨-, -, hblame, -, -⟩ := hreads .flood 1
  have hlast := congrArg List.getLast? hread
  rw [reads, read, List.getLast?_concat] at hlast
  exact ⟨reader, hcreate, hread, (hreads .flood 2).1, (hblame _ (Option.some.inj hlast)).1⟩

end TopicBridge
