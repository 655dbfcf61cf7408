import TopicBridge.Proofs.Closing
import TopicBridge.Proofs.Provenance

/-! An endpoint through a run of moves: writes, reads and changes of its link, in any order. The
reads use up from front to back what was received and what arrives, whatever happens between them,
and leave what follows a frame to the reads to come. -/
namespace TopicBridge

namespace Link
variable {link : Link} {kind : LinkKind} {room : Nat}

def Fits (kind : LinkKind) (room : Nat) (arrivals : List Arrival) : Prop :=
  kind = .datagram → ∀ data, .chunk data ∈ arrivals → data.length ≤ room

theorem octets_receive (hfits : Fits link.kind room link.arrivals) :
    link.octets = yielded (link.receive room).1 ++ (link.receive room).2.octets := by
  have hmeets := link.meets_receive room
  generalize link.receive room = receipt at hmeets ⊢
  cases hmeets with
  | closed => rfl
  | nothing => rfl
  | fault _ hfault =>
      rw [octets, hfault]
      rfl
  | @chunk data rest _ hchunk =>
      have hdata : link.kind = .datagram → data.length ≤ room := by
        intro hkind
        exact hfits hkind data (hchunk ▸ List.mem_cons_self)
      simp only [octets, hchunk, yielded, List.flatMap_cons, List.flatMap_append,
        ← List.append_assoc, take_append_leftover hdata]
      rfl

theorem Fits.append_iff {arrivals more : List Arrival} :
    Fits kind room (arrivals ++ more) ↔ Fits kind room arrivals ∧ Fits kind room more := by
  constructor
  · intro h
    exact ⟨fun hkind data hdata => h hkind data (List.mem_append_left _ hdata),
      fun hkind data hdata => h hkind data (List.mem_append_right _ hdata)⟩
  · rintro ⟨hfirst, hsecond⟩ hkind data hdata
    rcases List.mem_append.mp hdata with hdata | hdata
    · exact hfirst hkind data hdata
    · exact hsecond hkind data hdata

theorem Fits.receive (hfits : Fits link.kind room link.arrivals) (size : Nat) :
    Fits link.kind room (link.receive size).2.arrivals := by
  intro hkind chunk hchunk
  apply hfits hkind chunk
  have hmeets := link.meets_receive size
  generalize link.receive size = receipt at hmeets hchunk
  cases hmeets with
  | closed | nothing => exact hchunk
  | fault _ hfault =>
      rw [hfault]
      exact List.mem_cons_of_mem _ hchunk
  | chunk _ hnext =>
      rw [hkind, leftover, List.nil_append] at hchunk
      rw [hnext]
      exact List.mem_cons_of_mem _ hchunk

/-- The link with more to receive behind what is queued. -/
def expecting (link : Link) (more : List Arrival) : Link :=
  { link with arrivals := link.arrivals ++ more }

/-- A receive leaves what is queued behind it alone, if silence is queued where it finds nothing. -/
theorem exists_receive_expecting (link : Link) (room : Nat) :
    ∃ silence, ∀ more, (link.expecting (silence ++ more)).receive room =
      ((link.receive room).1, (link.receive room).2.expecting more) := by
  cases hclosed : link.closed with
  | true => exact ⟨[], fun more => by simp [receive, expecting, hclosed]⟩
  | false =>
      cases harrivals : link.arrivals with
      | nil =>
          refine ⟨[.chunk []], fun more => ?_⟩
          cases hkind : link.kind <;>
            simp [receive, expecting, hclosed, harrivals, leftover, hkind]
      | cons arrival rest =>
          refine ⟨[], fun more => ?_⟩
          cases arrival <;> simp [receive, expecting, hclosed, harrivals]

end Link

namespace Reader

section
variable {config : FrameConfig} {Meaning : Bytes → List Outcome → Prop} {reader : Reader}
  {outcomes : List Outcome} {link : Link} {ahead : Bytes}

/-- A read with `ahead` still to arrive says the next of what the whole stream means. -/
theorem Sound.reads_before (hvalid : config.validate = .ok ()) (hfollows : Follows config Meaning)
    (hsound : Sound config reader)
    (hfits : Link.Fits link.kind (max config.ringCapacity Link.maxDatagram) link.arrivals)
    (hmeaning : Meaning (reader.waiting ++ (link.octets ++ ahead)) outcomes) :
    ∃ later, outcomes = verdict (reader.readFrame link).1 ++ later ∧
      Sound config (reader.readFrame link).2.1 ∧
      Meaning ((reader.readFrame link).2.1.waiting ++
        ((reader.readFrame link).2.2.octets ++ ahead)) later := by
  obtain ⟨later, hreports, hlast⟩ := hsound.reports_drain hvalid hfollows hmeaning
  have hroom : Link.Fits link.kind (reader.drain.2.room link.kind) link.arrivals := by
    intro hkind data hdata
    rw [hkind, room, hreports.sound.configured]
    exact hfits hkind data hdata
  have hoctets := Link.octets_receive hroom
  have hattempts := reader.attempts_readFrame link
  generalize reader.readFrame link = answer at hattempts
  cases hattempts with
  | drained => exact ⟨later, hreports.said, hreports.sound, hreports.meaning⟩
  | failed hnone hreceive | silent hnone hreceive =>
      rw [hreceive] at hoctets
      rw [hnone] at hreports
      obtain rfl : outcomes = later := hreports.said
      have hmeaning := hreports.meaning
      rw [hoctets] at hmeaning
      exact ⟨outcomes, rfl, hreports.sound, hmeaning⟩
  | @received data next hnone _ hreceive =>
      rw [hreceive] at hoctets
      obtain ⟨hpending, -⟩ := hlast hnone
      rw [hnone] at hreports
      obtain rfl : outcomes = later := hreports.said
      have hmeaning := hreports.meaning
      rw [hoctets, List.append_assoc, ← List.append_assoc, Link.yielded,
        ← waiting_holding hpending] at hmeaning
      obtain ⟨rest, hrest, -⟩ :=
        (hreports.sound.holding data).reports_drain hvalid hfollows hmeaning
      exact ⟨rest, hrest.said, hrest.sound, hrest.meaning⟩

end

theorem fits_readFrame {room : Nat} (reader : Reader)
    (hfits : Link.Fits link.kind room link.arrivals) :
    Link.Fits link.kind room (reader.readFrame link).2.2.arrivals := by
  have hnext := hfits.receive (reader.drain.2.room link.kind)
  have hattempts := reader.attempts_readFrame link
  generalize reader.readFrame link = answer at hattempts
  cases hattempts with
  | drained => exact hfits
  | failed _ hreceive | silent _ hreceive | received _ _ hreceive =>
      rw [hreceive] at hnext
      exact hnext

theorem exists_readFrame_expecting (reader : Reader) (link : Link) :
    ∃ silence, ∀ more, reader.readFrame (link.expecting (silence ++ more)) =
      ((reader.readFrame link).1, (reader.readFrame link).2.1,
        (reader.readFrame link).2.2.expecting more) := by
  rcases hdrained : reader.drain.1 with cause | _ | frame
  · exact ⟨[], fun more => by simp [readFrame, hdrained]⟩
  · obtain ⟨silence, hsilence⟩ := link.exists_receive_expecting (reader.drain.2.room link.kind)
    refine ⟨silence, fun more => ?_⟩
    have hkind : (link.expecting (silence ++ more)).kind = link.kind := rfl
    simp only [readFrame, hdrained, hkind, hsilence]
    rcases (link.receive (reader.drain.2.room link.kind)).1 with cause | data
    · rfl
    · cases data <;> rfl
  · exact ⟨[], fun more => by simp [readFrame, hdrained]⟩

section
variable {reader after : Reader} {frame : Frame}

/-- Draining to a frame uses up the octets of the frame last. -/
theorem Drains.stands {result : Except FrameError (Option Frame)} (h : Drains reader result after)
    (hframe : result = .ok (some frame)) :
    ∃ gap octets, Frame.StandsFor reader.config.protocol octets frame ∧
      reader.waiting = gap ++ octets ++ after.waiting := by
  induction h with
  | @looked reader =>
      obtain ⟨-, gap, octets, hstands, hring, -⟩ := Frame.decode_sound hframe
      refine ⟨gap, octets, hstands, ?_⟩
      rw [waiting, waiting, ring_assemble, pending_assemble, hring, List.append_assoc]
  | full => cases hframe
  | @fed reader fed after result _ _ _ hfeeds _ ih =>
      have huses := reader.uses_assemble
      obtain ⟨used, hused, -⟩ := huses.stream
      obtain ⟨gap, octets, hstands, hrest⟩ := ih hframe
      rw [hfeeds.config, huses.config] at hstands
      refine ⟨used ++ gap, octets, hstands, ?_⟩
      rw [hused, ← hfeeds.waiting, hrest]
      simp only [List.append_assoc]

/-- What follows a frame that was read is what is upcoming then. -/
theorem upcoming_of_readFrame {link : Link}
    (hframe : (reader.readFrame link).1 = .ok (some frame)) :
    ∃ gap octets, Frame.StandsFor reader.config.protocol octets frame ∧
      reader.upcoming link =
        gap ++ octets ++ (reader.readFrame link).2.1.upcoming (reader.readFrame link).2.2 := by
  have huses := reader.drains_drain.uses
  have hkind := link.kind_receive (reader.drain.2.room link.kind)
  have hreach := link.reachable_receive (reader.drain.2.room link.kind)
  have hattempts := reader.attempts_readFrame link
  generalize reader.readFrame link = answer at hframe hattempts
  cases hattempts with
  | drained =>
      obtain ⟨gap, octets, hstands, hwaiting⟩ := reader.drains_drain.stands hframe
      refine ⟨gap, octets, hstands, ?_⟩
      rw [upcoming, upcoming, hwaiting, room_of_config huses.config]
      simp only [List.append_assoc]
  | failed => cases hframe
  | silent => cases hframe
  | @received data next hnone _ hreceive =>
      have hpending := reader.drains_drain.pending_eq_nil hnone
      have hdrains := (reader.drain.2.holding data).drains_drain
      obtain ⟨gap, octets, hstands, hwaiting⟩ := hdrains.stands hframe
      obtain ⟨used, hused, -⟩ := huses.stream
      rw [hreceive, room_of_config huses.config] at hreach
      rw [hreceive] at hkind
      rw [waiting_holding hpending] at hwaiting
      rw [show (reader.drain.2.holding data).config = reader.drain.2.config from rfl,
        huses.config] at hstands
      have hconfig : (reader.drain.2.holding data).drain.2.config = reader.config :=
        hdrains.uses.config.trans huses.config
      refine ⟨used ++ gap, octets, hstands, ?_⟩
      rw [upcoming, upcoming, hused, hreach, room_of_config hconfig, hkind, Link.yielded,
        List.append_assoc, ← List.append_assoc reader.drain.2.waiting, hwaiting]
      simp only [List.append_assoc]

end
end Reader

namespace Endpoint

inductive Move where
  | write (topic : UInt8) (payload : Bytes)
  | read
  | outside (outside : Outside)

def Move.arrivals : Move → List Arrival
  | .outside (.arrive arrival) => [arrival]
  | _ => []

/-- What the reads among some moves give, and the endpoint after the moves. -/
def play (endpoint : Endpoint) :
    List Move → List (Except FrameError (Option Frame)) × Endpoint
  | [] => ([], endpoint)
  | .write topic payload :: rest => play (endpoint.write topic payload).2 rest
  | .read :: rest =>
      (endpoint.read.1 :: (play endpoint.read.2 rest).1, (play endpoint.read.2 rest).2)
  | .outside outside :: rest =>
      play { endpoint with link := outside.change endpoint.link } rest

theorem play_append (endpoint : Endpoint) (moves more : List Move) :
    endpoint.play (moves ++ more) =
      ((endpoint.play moves).1 ++ ((endpoint.play moves).2.play more).1,
       ((endpoint.play moves).2.play more).2) := by
  induction moves generalizing endpoint with
  | nil => rfl
  | cons move moves ih =>
      cases move with
      | write topic payload => exact ih _
      | outside outside => exact ih _
      | read =>
          rw [List.cons_append, play, play, ih]
          rfl

theorem forall_mem_play {P : Except FrameError (Option Frame) → Prop}
    (h : ∀ endpoint : Endpoint, P endpoint.read.1) (endpoint : Endpoint) (moves : List Move) :
    ∀ result ∈ (endpoint.play moves).1, P result := by
  induction moves generalizing endpoint with
  | nil => exact List.forall_mem_nil _
  | cons move moves ih =>
      cases move with
      | write topic payload => exact ih _
      | read => exact List.forall_mem_cons.mpr ⟨h endpoint, ih _⟩
      | outside outside => exact ih _

theorem arrivals_replicate_read (count : Nat) :
    (List.replicate count Move.read).flatMap Move.arrivals = [] := by
  induction count with
  | zero => rfl
  | succ count ih => exact ih

def expecting (endpoint : Endpoint) (more : List Arrival) : Endpoint :=
  { endpoint with link := endpoint.link.expecting more }

/-- Reads between which something arrives are the reads of a link that has it all queued, behind
silence where there was nothing yet. -/
theorem exists_play_expecting (endpoint : Endpoint) {moves : List Move}
    (hmoves : ∀ move ∈ moves, move = .read ∨ ∃ arrival, move = .outside (.arrive arrival)) :
    ∃ queue, (endpoint.expecting queue).play
        (List.replicate (endpoint.play moves).1.length .read) = endpoint.play moves := by
  induction moves generalizing endpoint with
  | nil =>
      refine ⟨[], ?_⟩
      simp [play, expecting, Link.expecting]
  | cons move moves ih =>
      obtain ⟨hmove, hrest⟩ := List.forall_mem_cons.mp hmoves
      rcases hmove with rfl | ⟨arrival, rfl⟩
      · obtain ⟨queue, hqueue⟩ := ih endpoint.read.2 hrest
        obtain ⟨silence, hsilence⟩ := endpoint.reader.exists_readFrame_expecting endpoint.link
        have hread : (endpoint.expecting (silence ++ queue)).read =
            (endpoint.read.1, endpoint.read.2.expecting queue) := by
          simp only [read, expecting, hsilence]
        refine ⟨silence ++ queue, ?_⟩
        rw [play, List.length_cons, List.replicate_succ, play, hread, hqueue]
      · obtain ⟨queue, hqueue⟩ := ih { endpoint with link := endpoint.link.arrive arrival } hrest
        refine ⟨arrival :: queue, ?_⟩
        have hsame : endpoint.expecting (arrival :: queue) =
            expecting { endpoint with link := endpoint.link.arrive arrival } queue := by
          simp [expecting, Link.expecting, Link.arrive]
        rw [hsame]
        exact hqueue

/-- The octets received and not used up, and behind them those still to be received. -/
def upcoming (endpoint : Endpoint) : Bytes := endpoint.reader.upcoming endpoint.link

/-- The octets that arrivals add to what is upcoming. -/
def reach (endpoint : Endpoint) (arrivals : List Arrival) : Bytes :=
  arrivals.flatMap (Link.reach endpoint.link.kind (endpoint.reader.room endpoint.link.kind))

/-- From `before` to `after`, while `arrivals` came in, the frames in `seen` were used up, in order,
with other octets around them. -/
structure Continues (before : Endpoint) (arrivals : List Arrival)
    (seen : List (Except FrameError (Option Frame))) (after : Endpoint) : Prop where
  config : after.reader.config = before.reader.config
  kind : after.link.kind = before.link.kind
  stream : ∃ used, before.upcoming ++ before.reach arrivals = used ++ after.upcoming ∧
    Frame.Carries before.reader.config.protocol used (seen.flatMap frames)

section
variable {before middle after endpoint : Endpoint} {arrivals more : List Arrival}
  {seen rest : List (Except FrameError (Option Frame))}

theorem Continues.reach_eq (h : Continues before arrivals seen after) (more : List Arrival) :
    after.reach more = before.reach more := by
  rw [reach, reach, h.kind, Reader.room_of_config h.config]

theorem Continues.trans (hfirst : Continues before arrivals seen middle)
    (hsecond : Continues middle more rest after) :
    Continues before (arrivals ++ more) (seen ++ rest) after := by
  obtain ⟨used, hused, hframes⟩ := hfirst.stream
  obtain ⟨others, hothers, hmore⟩ := hsecond.stream
  rw [hfirst.config] at hmore
  refine ⟨hsecond.config.trans hfirst.config, hsecond.kind.trans hfirst.kind, used ++ others, ?_,
    ?_⟩
  · rw [hfirst.reach_eq] at hothers
    rw [reach, List.flatMap_append, ← List.append_assoc, ← reach, hused, List.append_assoc,
      ← reach, hothers, List.append_assoc]
  · rw [List.flatMap_append]
    exact hframes.append hmore

theorem continues_read (endpoint : Endpoint) :
    Continues endpoint [] [endpoint.read.1] endpoint.read.2 := by
  have hadvances := endpoint.reader.advances_readFrame endpoint.link
  obtain ⟨used, hused, hframes⟩ := hadvances.stream
  refine ⟨hadvances.config, hadvances.kind, used, ?_, ?_⟩
  · rw [reach, List.flatMap_nil, List.append_nil]
    exact hused
  · rw [List.flatMap_singleton]
    exact hframes

theorem continues_write (endpoint : Endpoint) (topic : UInt8) (payload : Bytes) :
    Continues endpoint [] [] (endpoint.write topic payload).2 := by
  have hsends := endpoint.sends_write topic payload
  have hreader : (endpoint.write topic payload).2.reader = endpoint.reader := rfl
  generalize (endpoint.write topic payload).2 = next at hsends hreader
  obtain ⟨link, reader, writer⟩ := next
  obtain rfl : reader = endpoint.reader := hreader
  cases hsends with
  | nothing | added => exact ⟨rfl, rfl, [], List.append_nil _, .nil _⟩

theorem continues_change (endpoint : Endpoint) (outside : Outside) :
    Continues endpoint (Move.outside outside).arrivals []
      { endpoint with link := outside.change endpoint.link } := by
  cases outside with
  | arrive arrival =>
      refine ⟨rfl, rfl, [], ?_, .nil _⟩
      simp only [upcoming, reach, Reader.upcoming, Move.arrivals, Outside.change, Link.arrive,
        Link.reachable, List.flatMap_append, List.append_assoc, List.nil_append]
  | close | failSend | failClose => exact ⟨rfl, rfl, [], List.append_nil _, .nil _⟩

theorem continues_play (endpoint : Endpoint) (moves : List Move) :
    Continues endpoint (moves.flatMap Move.arrivals) (endpoint.play moves).1
      (endpoint.play moves).2 := by
  induction moves generalizing endpoint with
  | nil => exact ⟨rfl, rfl, [], List.append_nil _, .nil _⟩
  | cons move moves ih =>
      cases move with
      | write topic payload => exact (endpoint.continues_write topic payload).trans (ih _)
      | read => exact endpoint.continues_read.trans (ih _)
      | outside outside => exact (endpoint.continues_change outside).trans (ih _)

end

section
variable {config : FrameConfig} {Meaning : Bytes → List Outcome → Prop} {endpoint : Endpoint}
  {outcomes : List Outcome}

/-- The reads among some moves say what the whole stream means, up to some point, and the octets
behind that point are still there. -/
theorem play_outcomes (hvalid : config.validate = .ok ()) (hfollows : Follows config Meaning)
    (hsound : endpoint.reader.Sound config) {moves : List Move}
    (hfits : Link.Fits endpoint.link.kind (max config.ringCapacity Link.maxDatagram)
      (endpoint.link.arrivals ++ moves.flatMap Move.arrivals))
    (hmeaning : Meaning (endpoint.reader.waiting ++
      (endpoint.link.octets ++ (moves.flatMap Move.arrivals).flatMap Arrival.octets)) outcomes) :
    ∃ later, outcomes = (endpoint.play moves).1.flatMap verdict ++ later ∧
      Meaning ((endpoint.play moves).2.reader.waiting ++ (endpoint.play moves).2.link.octets)
        later := by
  induction moves generalizing endpoint outcomes with
  | nil =>
      rw [List.flatMap_nil, List.flatMap_nil, List.append_nil] at hmeaning
      exact ⟨outcomes, rfl, hmeaning⟩
  | cons move moves ih =>
      rw [List.flatMap_cons] at hfits hmeaning
      cases move with
      | write topic payload =>
          have hreader : (endpoint.write topic payload).2.reader = endpoint.reader := rfl
          have hsends := endpoint.sends_write topic payload
          rw [play]
          generalize (endpoint.write topic payload).2 = next at hreader hsends
          obtain ⟨link, reader, writer⟩ := next
          obtain rfl : reader = endpoint.reader := hreader
          cases hsends with
          | nothing | added => exact ih hsound hfits hmeaning
      | read =>
          obtain ⟨hnow, hmore⟩ := Link.Fits.append_iff.mp hfits
          obtain ⟨later, rfl, hnext, hlater⟩ :=
            hsound.reads_before hvalid hfollows hnow hmeaning
          have hkind : endpoint.read.2.link.kind = endpoint.link.kind :=
            (endpoint.reader.advances_readFrame endpoint.link).kind
          have hleft : Link.Fits endpoint.read.2.link.kind
              (max config.ringCapacity Link.maxDatagram)
              (endpoint.read.2.link.arrivals ++ moves.flatMap Move.arrivals) := by
            rw [hkind]
            exact Link.Fits.append_iff.mpr ⟨endpoint.reader.fits_readFrame hnow, hmore⟩
          obtain ⟨rest, hrest, hend⟩ := ih hnext hleft hlater
          refine ⟨rest, ?_, hend⟩
          rw [hrest, play, List.flatMap_cons, List.append_assoc]
          rfl
      | outside outside =>
          rw [play]
          cases outside with
          | arrive arrival =>
              rw [← List.append_assoc] at hfits
              refine ih hsound hfits ?_
              rw [Move.arrivals, List.singleton_append, List.flatMap_cons,
                ← List.append_assoc endpoint.link.octets] at hmeaning
              simp only [Outside.change, Link.arrive, Link.octets, List.flatMap_append,
                List.flatMap_singleton]
              exact hmeaning
          | close | failSend | failClose => exact ih hsound hfits hmeaning

end

end Endpoint
end TopicBridge
