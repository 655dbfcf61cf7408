import TopicBridge.Proofs.Provenance
import TopicBridge.Proofs.Turns

/-! Progress. Whatever is buffered and pending, a frame or an error is paid for with at least one of
the octets at hand, and waiting never adds to them. So what a reader holds and what its link has
queued bound all that its reads can return but nothing. -/
namespace TopicBridge
namespace Frame

section
variable {capacity maxPayload : Nat} {s : Bytes} {look : Look}

theorem ne_nil_of_marker {skipped : Nat} (h : marker <+: s.drop skipped) : s ≠ [] := by
  rintro rfl
  rw [List.drop_nil] at h
  exact marker_ne_nil (List.prefix_nil.mp h)

theorem LooksAt.consumed_pos (h : LooksAt maxPayload s look) (hsome : look.result ≠ .ok none) :
    s ≠ [] ∧ 0 < look.consumed := by
  cases h with
  | nowhere => exact absurd rfl hsome
  | @found skipped frame hmarker =>
      have hlength : 0 < frame.markedLength := Nat.add_pos_left (Nat.succ_pos 8) _
      exact ⟨ne_nil_of_marker hmarker, Nat.add_pos_right skipped hlength⟩
  | waiting => exact absurd rfl hsome
  | failed hmarker => exact ⟨ne_nil_of_marker hmarker, Nat.succ_pos _⟩

theorem LooksPast.consumed_pos (h : LooksPast capacity maxPayload s look)
    (hsome : look.result ≠ .ok none) : s ≠ [] ∧ 0 < look.consumed := by
  cases h with
  | nothing => exact absurd rfl hsome
  | emptied => exact ⟨List.cons_ne_nil _ _, Nat.add_pos_left Nat.one_pos _⟩
  | ended _ _ rest =>
      exact ⟨List.append_ne_nil_of_right_ne_nil _ (List.cons_ne_nil _ _), Nat.succ_pos _⟩
  | full hne _ hfull => exact ⟨hne, hfull ▸ List.length_pos_iff.mpr hne⟩
  | going => exact absurd rfl hsome

theorem look_consumed_pos (protocol : Protocol)
    (h : (Frame.look protocol capacity maxPayload s).result ≠ .ok none) :
    s ≠ [] ∧ 0 < (Frame.look protocol capacity maxPayload s).consumed := by
  cases protocol with
  | px4 => exact (looksAt_lookMarked maxPayload s).consumed_pos h
  | cobs => exact (looksPast_lookDelimited capacity maxPayload s).consumed_pos h

end

section
variable {protocol : Protocol} {maxPayload : Nat} {ring : Ring}

theorem length_decode (protocol : Protocol) (maxPayload : Nat) (ring : Ring) :
    (decode protocol maxPayload ring).2.length =
      ring.length - (look protocol ring.capacity maxPayload ring.toList).consumed := by
  rw [← Ring.length_toList, toList_decode, List.length_drop, Ring.length_toList]

theorem length_decode_lt (h : (decode protocol maxPayload ring).1 ≠ .ok none) :
    (decode protocol maxPayload ring).2.length < ring.length := by
  obtain ⟨hne, hconsumed⟩ := look_consumed_pos protocol h
  have hlength := List.length_pos_iff.mpr hne
  rw [Ring.length_toList] at hlength
  rw [length_decode]
  omega

end
end Frame

namespace Reader

section
variable {reader before after : Reader} {result : Except FrameError (Option Frame)} {link : Link}

theorem buffered_assemble_le (reader : Reader) : reader.assemble.2.buffered ≤ reader.buffered := by
  have hlength := Frame.length_decode reader.config.protocol reader.maxPayload reader.ring
  rw [buffered, buffered, pending_assemble, ring_assemble]
  omega

theorem buffered_assemble_lt (h : reader.assemble.1 ≠ .ok none) :
    reader.assemble.2.buffered < reader.buffered := by
  have hlength := Frame.length_decode_lt h
  rw [buffered, buffered, pending_assemble, ring_assemble]
  omega

theorem Feeds.buffered (h : Feeds before after) : after.buffered = before.buffered := by
  rw [← length_waiting, h.waiting, length_waiting]

theorem buffered_overflowed_lt (hfull : reader.ring.free = 0) :
    reader.overflowed.2.buffered < reader.buffered := by
  have hcapacity : 0 < reader.ring.capacity := Nat.zero_lt_of_lt reader.ring.head_lt
  have hroom := reader.ring.length_add_free
  have hleft : reader.overflowed.2.buffered = reader.pending.length := Nat.zero_add _
  rw [hleft, Reader.buffered]
  omega

theorem Drains.buffered (h : Drains reader result after) :
    after.buffered ≤ reader.buffered ∧
      (result ≠ .ok none → after.buffered < reader.buffered) := by
  induction h with
  | @looked reader _ => exact ⟨reader.buffered_assemble_le, buffered_assemble_lt⟩
  | @full reader _ _ hfull =>
      have hless := Nat.lt_of_lt_of_le (buffered_overflowed_lt hfull) reader.buffered_assemble_le
      exact ⟨Nat.le_of_lt hless, fun _ => hless⟩
  | @fed reader _ _ _ _ _ _ hfeeds _ ih =>
      have hlooked := reader.buffered_assemble_le
      rw [hfeeds.buffered] at ih
      exact ⟨Nat.le_trans ih.1 hlooked, fun hsome => Nat.lt_of_lt_of_le (ih.2 hsome) hlooked⟩

/-- The read asked the link, and that is what failed. -/
def FailsToReceive (reader : Reader) (link : Link) : Prop :=
  reader.drain.1 = .ok none ∧ ∃ cause,
    (link.receive (reader.drain.2.room link.kind)).1 = .error cause ∧
      (reader.readFrame link).1 = .error (.link cause)

theorem buffered_readFrame (reader : Reader) (link : Link) :
    (reader.readFrame link).2.1.buffered ≤ reader.buffered + (reader.intake link).length ∧
      ((reader.readFrame link).1 ≠ .ok none → reader.FailsToReceive link ∨
        (reader.readFrame link).2.1.buffered < reader.buffered + (reader.intake link).length) := by
  obtain ⟨hle, hlt⟩ := reader.drains_drain.buffered
  have hattempts := reader.attempts_readFrame link
  rw [FailsToReceive, intake]
  generalize reader.readFrame link = answer at hattempts ⊢
  cases hattempts with
  | drained hsome =>
      rw [if_neg hsome]
      exact ⟨hle, fun _ => .inr (hlt hsome)⟩
  | failed hnone hreceive =>
      rw [if_pos hnone, hreceive]
      exact ⟨hle, fun _ => .inl ⟨hnone, _, rfl, rfl⟩⟩
  | silent hnone hreceive =>
      rw [if_pos hnone, hreceive]
      exact ⟨hle, fun hsome => absurd rfl hsome⟩
  | @received data _ hnone _ hreceive =>
      have hheld : (reader.drain.2.holding data).buffered ≤ reader.buffered + data.length := by
        have hpending := reader.drains_drain.pending_eq_nil hnone
        have hlength := congrArg List.length (waiting_holding hpending data)
        rw [length_waiting, List.length_append, length_waiting] at hlength
        omega
      obtain ⟨hfed, hless⟩ := (reader.drain.2.holding data).drains_drain.buffered
      rw [if_pos hnone, hreceive]
      exact ⟨Nat.le_trans hfed hheld, fun hsome => .inr (Nat.lt_of_lt_of_le (hless hsome) hheld)⟩

theorem length_verdict_le_one (result : Except FrameError (Option Frame)) :
    (verdict result).length ≤ 1 := by
  cases result with
  | ok found => cases found <;> simp [verdict]
  | error cause => cases cause <;> simp [verdict]

/-- A frame or a decoding error costs an octet. -/
theorem length_verdict_add_buffered_le (reader : Reader) (link : Link) :
    (verdict (reader.readFrame link).1).length + (reader.readFrame link).2.1.buffered ≤
      reader.buffered + (reader.intake link).length := by
  obtain ⟨hle, hlt⟩ := reader.buffered_readFrame link
  have hone := length_verdict_le_one (reader.readFrame link).1
  by_cases hnothing : verdict (reader.readFrame link).1 = []
  · rw [hnothing, List.length_nil, Nat.zero_add]
    exact hle
  · have hsome : (reader.readFrame link).1 ≠ .ok none := by
      intro hnone
      rw [hnone] at hnothing
      exact hnothing rfl
    rcases hlt hsome with ⟨-, cause, -, hfails⟩ | hless
    · rw [hfails] at hnothing
      exact absurd rfl hnothing
    · omega

theorem reachable_readFrame (reader : Reader) (link : Link) :
    link.reachable (reader.room link.kind) =
      reader.intake link ++ (reader.readFrame link).2.2.reachable (reader.room link.kind) := by
  have hreach := link.reachable_receive (reader.drain.2.room link.kind)
  have hattempts := reader.attempts_readFrame link
  rw [intake]
  generalize reader.readFrame link = answer at hattempts ⊢
  cases hattempts with
  | drained hsome => rw [if_neg hsome, List.nil_append]
  | failed hnone hreceive | silent hnone hreceive | received hnone _ hreceive =>
      rw [if_pos hnone]
      rw [hreceive, room_of_config reader.drains_drain.uses.config] at hreach
      rw [hreceive]
      exact hreach

theorem length_upcoming (reader : Reader) (link : Link) :
    (reader.upcoming link).length =
      reader.buffered + (link.reachable (reader.room link.kind)).length := by
  rw [upcoming, List.length_append, length_waiting]

theorem length_upcoming_readFrame (reader : Reader) (link : Link) :
    ((reader.readFrame link).2.1.upcoming (reader.readFrame link).2.2).length +
        (reader.buffered + (reader.intake link).length) =
      (reader.readFrame link).2.1.buffered + (reader.upcoming link).length := by
  have hadvances := reader.advances_readFrame link
  have hreach := congrArg List.length (reader.reachable_readFrame link)
  rw [List.length_append] at hreach
  rw [length_upcoming, length_upcoming, room_of_config hadvances.config, hadvances.kind]
  omega

end
end Reader

namespace Link

/-- Every receive yields no octets. -/
structure Silent (link : Link) : Prop where
  opened : link.closed = false
  quiet : ∀ arrival ∈ link.arrivals, arrival = .chunk []

theorem Silent.receive {link : Link} (h : link.Silent) (room : Nat) :
    (link.receive room).1 = .ok [] ∧ (link.receive room).2.Silent := by
  have hmeets := link.meets_receive room
  generalize link.receive room = receipt at hmeets ⊢
  cases hmeets with
  | closed hclosed =>
      rw [h.opened] at hclosed
      cases hclosed
  | nothing => exact ⟨rfl, h⟩
  | fault _ hfault =>
      have hquiet := h.quiet
      rw [hfault] at hquiet
      cases hquiet _ List.mem_cons_self
  | chunk _ hchunk =>
      have hquiet := h.quiet
      rw [hchunk] at hquiet
      obtain ⟨rfl⟩ := Arrival.chunk.inj (hquiet _ List.mem_cons_self)
      refine ⟨by rw [List.take_nil], h.opened, ?_⟩
      rw [leftover_nil]
      exact fun arrival harrival => hquiet arrival (List.mem_cons_of_mem _ harrival)

end Link

namespace Reader

theorem intake_of_silent (reader : Reader) {link : Link} (h : link.Silent) :
    reader.intake link = [] := by
  obtain ⟨hnothing, -⟩ := h.receive (reader.drain.2.room link.kind)
  rw [intake, hnothing]
  exact ite_self []

theorem silent_readFrame (reader : Reader) {link : Link} (h : link.Silent) :
    (reader.readFrame link).2.2.Silent := by
  obtain ⟨-, hnext⟩ := h.receive (reader.drain.2.room link.kind)
  have hattempts := reader.attempts_readFrame link
  generalize reader.readFrame link = answer at hattempts ⊢
  cases hattempts with
  | drained => exact h
  | failed _ hreceive | silent _ hreceive | received _ _ hreceive =>
      rw [hreceive] at hnext
      exact hnext

theorem buffered_lt_of_silent {reader : Reader} {link : Link} (h : link.Silent)
    (hsome : (reader.readFrame link).1 ≠ .ok none) :
    (reader.readFrame link).2.1.buffered < reader.buffered := by
  obtain ⟨-, hlt⟩ := reader.buffered_readFrame link
  rw [reader.intake_of_silent h] at hlt
  rcases hlt hsome with ⟨-, cause, hfails, -⟩ | hless
  · rw [(h.receive _).1] at hfails
    cases hfails
  · exact hless

end Reader

namespace Link

def failures : Except LinkError Bytes → List LinkError
  | .ok _ => []
  | .error cause => [cause]

theorem faults_receive {link : Link} (hopen : link.closed = false) (room : Nat) :
    link.faults = failures (link.receive room).1 ++ (link.receive room).2.faults := by
  have hmeets := link.meets_receive room
  generalize link.receive room = receipt at hmeets ⊢
  cases hmeets with
  | closed hclosed =>
      rw [hopen] at hclosed
      cases hclosed
  | nothing => rfl
  | fault _ hfault =>
      rw [faults, hfault]
      rfl
  | chunk _ hchunk =>
      simp only [faults, hchunk, failures, List.flatMap_cons, List.flatMap_append, faults_leftover]
      rfl

end Link

namespace Reader

/-- On an open link a failure to receive costs one of the failures queued. -/
theorem faults_readFrame (reader : Reader) {link : Link} (hopen : link.closed = false) :
    (reader.readFrame link).2.2.faults.length ≤ link.faults.length ∧
      (reader.FailsToReceive link →
        (reader.readFrame link).2.2.faults.length < link.faults.length) := by
  have hfaults := congrArg List.length (link.faults_receive hopen (reader.drain.2.room link.kind))
  rw [List.length_append] at hfaults
  have hattempts := reader.attempts_readFrame link
  rw [FailsToReceive]
  generalize reader.readFrame link = answer at hattempts ⊢
  cases hattempts with
  | drained hsome => exact ⟨Nat.le_refl _, fun hfails => absurd hfails.1 hsome⟩
  | failed _ hreceive =>
      rw [hreceive] at hfaults
      have hless := Nat.lt_of_lt_of_eq (Nat.lt_add_of_pos_left Nat.one_pos) hfaults.symm
      exact ⟨Nat.le_of_lt hless, fun _ => hless⟩
  | silent _ hreceive | received _ _ hreceive =>
      rw [hreceive] at hfaults ⊢
      refine ⟨Nat.le_of_eq (hfaults.trans (Nat.zero_add _)).symm, ?_⟩
      rintro ⟨-, cause, ⟨⟩, -⟩

end Reader

namespace Session

theorem reads_read (session : Session) (n : Nat) :
    session.read.reads n = session.reads (n + 1) := by
  induction n with
  | zero => rfl
  | succ n ih => rw [reads, ih, ← reads]

/-- On a silent link there are at most as many frames and errors as octets at hand, and then a read
in vain. -/
theorem exists_silence (session : Session) (hsilent : session.link.Silent) :
    ∃ answered : List (Except FrameError (Option Frame)),
      answered.length ≤ session.reader.buffered ∧ (∀ result ∈ answered, result ≠ .ok none) ∧
      (session.reads (answered.length + 1)).results =
        session.results ++ answered ++ [.ok none] := by
  induction hn : session.reader.buffered using Nat.strongRecOn generalizing session with
  | ind n ih =>
      by_cases hnone : (session.reader.readFrame session.link).1 = .ok none
      · refine ⟨[], Nat.zero_le n, List.forall_mem_nil _, ?_⟩
        show session.read.results = _
        rw [read, hnone, List.append_nil]
      · have hless := Reader.buffered_lt_of_silent hsilent hnone
        rw [hn] at hless
        have hnext := session.reader.silent_readFrame hsilent
        obtain ⟨answered, hlength, hanswered, hresults⟩ :=
          ih _ hless session.read hnext rfl
        refine ⟨_ :: answered, ?_, List.forall_mem_cons.mpr ⟨hnone, hanswered⟩, ?_⟩
        · rw [List.length_cons]
          exact Nat.lt_of_le_of_lt hlength hless
        · rw [List.length_cons, ← reads_read, hresults]
          simp only [read, List.append_assoc, List.cons_append, List.nil_append]

/-- The frames and decoding errors still to come cost an octet each. -/
theorem length_outcomes_reads (session : Session) (n : Nat) :
    (session.reads n).outcomes.length +
        ((session.reads n).reader.upcoming (session.reads n).link).length ≤
      session.outcomes.length + (session.reader.upcoming session.link).length := by
  induction n with
  | zero => exact Nat.le_refl _
  | succ n ih =>
      have hcost := (session.reads n).reader.length_verdict_add_buffered_le (session.reads n).link
      have hupcoming := (session.reads n).reader.length_upcoming_readFrame (session.reads n).link
      rw [reads, outcomes_read, List.length_append]
      simp only [Session.read]
      omega

def answers (session : Session) : Nat := session.results.countP (· ≠ .ok none)

theorem answers_read (session : Session) :
    session.read.answers =
      session.answers + if (session.reader.readFrame session.link).1 = .ok none then 0 else 1 := by
  rw [answers, read, List.countP_append, List.countP_singleton]
  by_cases hnone : (session.reader.readFrame session.link).1 = .ok none <;> simp [hnone, answers]

theorem closed_read (session : Session) : session.read.link.closed = session.link.closed := by
  obtain ⟨arrivals, hlink⟩ := session.reader.exists_arrivals_readFrame session.link
  rw [read, hlink]

/-- On an open link each read that is not in vain costs an octet or one of the failures queued. -/
theorem answers_reads (session : Session) (hopen : session.link.closed = false) (n : Nat) :
    (session.reads n).link.closed = false ∧
      (session.reads n).answers +
          ((session.reads n).reader.upcoming (session.reads n).link).length +
          (session.reads n).link.faults.length ≤
        session.answers + (session.reader.upcoming session.link).length +
          session.link.faults.length := by
  induction n with
  | zero => exact ⟨hopen, Nat.le_refl _⟩
  | succ n ih =>
      obtain ⟨hstill, hcost⟩ := ih
      refine ⟨(closed_read _).trans hstill, ?_⟩
      have hupcoming := (session.reads n).reader.length_upcoming_readFrame (session.reads n).link
      obtain ⟨hle, hlt⟩ := (session.reads n).reader.buffered_readFrame (session.reads n).link
      obtain ⟨hfaults, hfewer⟩ := (session.reads n).reader.faults_readFrame hstill
      rw [reads, answers_read]
      simp only [Session.read]
      by_cases hnone : ((session.reads n).reader.readFrame (session.reads n).link).1 = .ok none
      · rw [if_pos hnone]
        omega
      · rw [if_neg hnone]
        rcases hlt hnone with hfails | hless
        · have := hfewer hfails
          omega
        · omega

/-- Every read makes progress, whatever the queue holds, whatever is pending and whatever the link
has. It is over within a bounded number of turns of its loops; a frame or a decoding error leaves
fewer octets than were at hand and were received, and a read in vain never more. On a silent link a
read in vain therefore comes after at most as many frames and errors as octets were at hand, and on
an open link all that is returned but nothing is bounded by what is at hand and what is queued. -/
theorem reads_progress (reader : Reader) (link : Link) :
    (∀ turns,
      reader.ring.capacity + reader.pending.length + (reader.intake link).length + 2 ≤ turns →
        reader.readWithin turns link = some (reader.readFrame link)) ∧
    (verdict (reader.readFrame link).1 ≠ [] →
      (reader.readFrame link).2.1.buffered < reader.buffered + (reader.intake link).length) ∧
    ((reader.readFrame link).1 = .ok none →
      (reader.readFrame link).2.1.buffered ≤ reader.buffered + (reader.intake link).length) ∧
    (link.Silent → ∃ answered : List (Except FrameError (Option Frame)),
      answered.length ≤ reader.buffered ∧ (∀ result ∈ answered, result ≠ .ok none) ∧
        (reads { reader, link } (answered.length + 1)).results = answered ++ [.ok none]) ∧
    (∀ n, (reads { reader, link } n).outcomes.length ≤ (reader.upcoming link).length) ∧
    (link.closed = false → ∀ n,
      (reads { reader, link } n).results.countP (· ≠ .ok none) ≤
        (reader.upcoming link).length + link.faults.length) := by
  obtain ⟨hle, -⟩ := reader.buffered_readFrame link
  refine ⟨fun _ => Reader.readWithin_eq, ?_, fun _ => hle,
    exists_silence { reader, link }, ?_, ?_⟩
  · intro hsome
    have hcost := reader.length_verdict_add_buffered_le link
    have hone := List.length_pos_iff.mpr hsome
    omega
  · intro n
    have hcost := length_outcomes_reads { reader, link } n
    have hstart : (Session.outcomes { reader, link }).length = 0 := rfl
    rw [hstart, Nat.zero_add] at hcost
    exact Nat.le_trans (Nat.le_add_right _ _) hcost
  · intro hopen n
    obtain ⟨-, hcost⟩ := answers_reads { reader, link } hopen n
    have hstart : Session.answers { reader, link } = 0 := rfl
    rw [answers, hstart, Nat.zero_add, Nat.add_assoc] at hcost
    exact Nat.le_trans (Nat.le_add_right _ _) hcost

/-- Empty records in the queue; pending a record that does not unstuff, one too short for a header,
and one as long as the queue. -/
def laden : Reader where
  config := { protocol := .cobs, ringCapacity := 9 }
  ring := ⟨Array.replicate 9 0, 7, 3, by decide, by decide⟩
  pending := [5, 0, 1, 1, 0, 1, 2, 3, 4, 5, 6, 7, 8, 9, 1]

theorem reads_progress_laden :
    laden.readWithin 26 .stream = some (laden.readFrame .stream) ∧
      (laden.readFrame .stream).2.1.buffered < 18 ∧
      (∃ answered : List (Except FrameError (Option Frame)),
        answered.length ≤ 18 ∧ (∀ result ∈ answered, result ≠ .ok none) ∧
          (reads { reader := laden, link := .stream } (answered.length + 1)).results =
            answered ++ [.ok none]) ∧
      ∀ n, (reads { reader := laden, link := .stream } n).results.countP (· ≠ .ok none) ≤ 18 := by
  obtain ⟨hturns, hless, -, hsilent, -, hbound⟩ := reads_progress laden .stream
  have hintake : laden.intake .stream = [] := by decide +kernel
  have hsome : verdict (laden.readFrame .stream).1 ≠ [] := by decide +kernel
  have hstream : Link.stream.Silent := ⟨rfl, List.forall_mem_nil _⟩
  have hupcoming : (laden.upcoming .stream).length + Link.stream.faults.length = 18 := by
    decide +kernel
  rw [hintake] at hturns hless
  refine ⟨hturns 26 (by decide), hless hsome, hsilent hstream, fun n => ?_⟩
  rw [← hupcoming]
  exact hbound rfl n

end Session
end TopicBridge
