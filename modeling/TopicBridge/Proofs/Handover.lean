import TopicBridge.Proofs.Dispatching
import TopicBridge.Proofs.Lossless
import TopicBridge.Proofs.Moves
import TopicBridge.Proofs.Parties
import TopicBridge.Proofs.Passage

/-! From a negotiation to the bridge that is started with its table. The first answer decides,
whatever was read before it, and the worker of the bridge reads on where the answer ended. -/
namespace TopicBridge

theorem Reader.eq_closed_of_readFrame {reader : Reader} {link : Link} {cause : FrameError}
    (h : (reader.readFrame link).1 = .error cause) (hlasting : cause.isTransient = false) :
    cause = .link .closed := by
  have hattempts := reader.attempts_readFrame link
  generalize reader.readFrame link = answer at h hattempts
  have hpasses : ∀ {drained : Reader}, drained.drain.1 = .error cause → False := by
    intro drained hdrained
    rw [drained.drains_drain.isTransient hdrained] at hlasting
    cases hlasting
  cases hattempts with
  | drained => exact (hpasses h).elim
  | failed =>
      cases h
      rcases isTransient_eq_false_iff.mp hlasting with hclosed | ⟨reason, hconfig⟩
      · exact hclosed
      · cases hconfig
  | silent => cases h
  | received => exact (hpasses h).elim

namespace Negotiation

/-- What a wait for a frame on `topic` passes over. -/
inductive Passed (topic : UInt8) : Except FrameError (Option Frame) → Prop
  | silence : Passed topic (.ok none)
  | other {frame : Frame} : frame.topic ≠ topic → Passed topic (.ok (some frame))
  | lost {cause : FrameError} : cause.isTransient = true → Passed topic (.error cause)

section
variable {topic : UInt8} {wait : Duration} {count : Nat} {endpoint : Endpoint}
  {result : Except FrameError (Option Frame)}

theorem heard_of_passed (h : Passed topic result) : heard topic result = none := by
  cases h with
  | silence => rfl
  | other htopic => rw [heard, if_neg htopic]
  | lost htransient => rw [heard, if_pos htransient]

theorem passed_or_heard (topic : UInt8) (endpoint : Endpoint) :
    Passed topic endpoint.read.1 ∨
      (∃ frame, endpoint.read.1 = .ok (some frame) ∧ frame.topic = topic) ∨
      endpoint.read.1 = .error (.link .closed) := by
  rcases hresult : endpoint.read.1 with cause | _ | frame
  · cases htransient : cause.isTransient with
    | true => exact .inl (.lost htransient)
    | false =>
        obtain rfl := Reader.eq_closed_of_readFrame hresult htransient
        exact .inr (.inr rfl)
  · exact .inl .silence
  · by_cases htopic : frame.topic = topic
    · exact .inr (.inl ⟨frame, rfl, htopic⟩)
    · exact .inl (.other htopic)

theorem await_of_passed
    (h : ∀ result ∈ (endpoint.play (List.replicate count .read)).1, Passed topic result) :
    await topic wait count endpoint =
      (.error (.negotiationTimeout wait), (endpoint.play (List.replicate count .read)).2) := by
  induction count generalizing endpoint with
  | zero => rfl
  | succ count ih =>
      rw [List.replicate_succ, Endpoint.play] at h
      obtain ⟨hfirst, hrest⟩ := List.forall_mem_cons.mp h
      rw [await_succ, heard_of_passed hfirst]
      exact ih hrest

theorem await_of_heard {before after : List (Except FrameError (Option Frame))}
    {outcome : Except BridgeError Bytes}
    (hseen : (endpoint.play (List.replicate count .read)).1 = before ++ result :: after)
    (hbefore : ∀ earlier ∈ before, Passed topic earlier)
    (hheard : heard topic result = some outcome) :
    await topic wait count endpoint =
      (outcome, (endpoint.play (List.replicate (before.length + 1) .read)).2) ∧
    (endpoint.play (List.replicate (before.length + 1) .read)).1 = before ++ [result] := by
  induction before generalizing count endpoint with
  | nil =>
      cases count with
      | zero => cases hseen
      | succ count =>
          rw [List.replicate_succ, Endpoint.play] at hseen
          obtain ⟨hresult, -⟩ := List.cons.inj hseen
          rw [await_succ, hresult, hheard]
          exact ⟨rfl, congrArg ([·]) hresult⟩
  | cons earlier before ih =>
      cases count with
      | zero => cases hseen
      | succ count =>
          rw [List.replicate_succ, Endpoint.play] at hseen
          obtain ⟨hresult, hrest⟩ := List.cons.inj hseen
          obtain ⟨hearlier, hbefore⟩ := List.forall_mem_cons.mp hbefore
          rw [await_succ, hresult, heard_of_passed hearlier]
          obtain ⟨hawait, hupto⟩ := ih hrest hbefore
          refine ⟨hawait, ?_⟩
          rw [List.length_cons, List.replicate_succ, Endpoint.play, hupto, hresult]
          rfl

theorem negotiate_of_asked {reads : Endpoint → Nat} {asked : Endpoint} {size : Nat}
    (hasked : endpoint.write Topic.request [] = (.ok size, asked)) :
    negotiate wait reads endpoint =
      ((await Topic.response wait (reads asked) asked).1 >>= MappingMessage.decode >>=
        Table.ofMessage, (await Topic.response wait (reads asked) asked).2) := by
  rw [negotiate, request, hasked]

end
end Negotiation

def Happening.seen : Happening → List (Except FrameError (Option Frame))
  | .read result => [result]
  | _ => []

namespace Life
variable {η : Type}

def seen (life : Life η) : List (Except FrameError (Option Frame)) :=
  life.log.flatMap Happening.seen

theorem delivered_eq (life : Life η) : life.delivered = life.seen.flatMap frames := by
  rw [delivered, seen, List.flatMap_assoc]
  congr 1
  funext happening
  cases happening with
  | read result =>
      rcases result with cause | _ | frame
      · rfl
      · rfl
      · rfl
  | _ => rfl

def Turn.arrivals : Turn → List Arrival
  | .outside (.arrive arrival) => [arrival]
  | _ => []

def footprint (life : Life η) : Turn → List Endpoint.Move
  | .work =>
      match life.bridge.worker with
      | .reading => [.read]
      | _ => []
  | .proceed =>
      match life.owner with
      | .closing _ _ => [.outside .close]
      | _ => []
  | .send topic payload => [.write topic.topicId payload]
  | .outside outside => [.outside outside]
  | .call _ => []

theorem arrivals_footprint (life : Life η) (turn : Turn) :
    (life.footprint turn).flatMap Endpoint.Move.arrivals = turn.arrivals := by
  cases turn with
  | work =>
      rw [footprint]
      split <;> rfl
  | proceed =>
      rw [footprint]
      split <;> rfl
  | outside outside =>
      cases outside with
      | arrive | close | failSend | failClose => rfl
  | send | call => rfl

section
variable [Host η]

def footprints (life : Life η) : List Turn → List Endpoint.Move
  | [] => []
  | turn :: turns => life.footprint turn ++ (life.turn turn).footprints turns

theorem arrivals_footprints (life : Life η) (turns : List Turn) :
    (life.footprints turns).flatMap Endpoint.Move.arrivals = turns.flatMap Turn.arrivals := by
  induction turns generalizing life with
  | nil => rfl
  | cons turn turns ih =>
      rw [footprints, List.flatMap_append, List.flatMap_cons, arrivals_footprint, ih]

theorem play_work (life : Life η) :
    (life.bridge.endpoint.play (life.footprint .work)).2 = life.bridge.step.endpoint ∧
      life.bridge.deeds.flatMap Happening.seen =
        (life.bridge.endpoint.play (life.footprint .work)).1 := by
  have hworks := life.bridge.works_step
  generalize life.bridge.step = next at hworks
  generalize life.bridge.deeds = deeds at hworks
  cases hworks with
  | @dispatched frame hworker =>
      rw [footprint, hworker]
      have hdispatches := life.bridge.dispatches_dispatch frame
      generalize life.bridge.dispatch frame = next at hdispatches
      cases hdispatches with
      | unroutable | published | refused | crashed => exact ⟨rfl, rfl⟩
  | read hworker | stopping hworker | going hworker | rested hworker | gaveUp hworker =>
      rw [footprint, hworker]
      exact ⟨rfl, rfl⟩
  | idle hover =>
      cases hworker : life.bridge.worker with
      | ended | crashed =>
          rw [footprint, hworker]
          exact ⟨rfl, rfl⟩
      | checking | reading | holding | pausing | failing =>
          rw [hworker] at hover
          cases hover

theorem play_footprint (life : Life η) (turn : Turn) :
    (life.bridge.endpoint.play (life.footprint turn)).2 = (life.turn turn).bridge.endpoint ∧
      (life.turn turn).seen =
        life.seen ++ (life.bridge.endpoint.play (life.footprint turn)).1 := by
  cases turn with
  | work =>
      obtain ⟨hendpoint, hseen⟩ := life.play_work
      refine ⟨hendpoint, ?_⟩
      rw [← hseen]
      exact List.flatMap_append
  | call ending =>
      rw [Life.turn]
      cases life.owner with
      | free =>
          by_cases hstopped : life.bridge.stage = .stopped
          · simp [hstopped, footprint, Endpoint.play, seen, Happening.seen]
          · simp [hstopped, footprint, Endpoint.play, seen, Happening.seen, Bridge.cancel]
      | joining | closing | marking | gone => exact ⟨rfl, (List.append_nil _).symm⟩
  | proceed =>
      rw [Life.turn, footprint]
      cases life.owner with
      | joining ending =>
          cases halive : life.bridge.worker.isAlive with
          | true => simp [Endpoint.play]
          | false => simp [Endpoint.play, seen]
      | closing ending summary =>
          refine ⟨rfl, ?_⟩
          simp [Endpoint.play, seen, Happening.seen]
      | marking ending result =>
          refine ⟨rfl, ?_⟩
          simp [Endpoint.play, seen, Happening.seen]
      | free | gone => exact ⟨rfl, (List.append_nil _).symm⟩
  | send topic payload => exact ⟨rfl, (List.append_nil _).symm⟩
  | outside outside => exact ⟨rfl, (List.append_nil _).symm⟩

theorem play_footprints (life : Life η) (turns : List Turn) :
    (life.bridge.endpoint.play (life.footprints turns)).2 = (life.run turns).bridge.endpoint ∧
      (life.run turns).seen =
        life.seen ++ (life.bridge.endpoint.play (life.footprints turns)).1 := by
  induction turns generalizing life with
  | nil => exact ⟨rfl, (List.append_nil _).symm⟩
  | cons turn turns ih =>
      obtain ⟨hendpoint, hseen⟩ := life.play_footprint turn
      obtain ⟨hlast, hrest⟩ := ih (life.turn turn)
      rw [footprints, Endpoint.play_append, hendpoint]
      refine ⟨hlast, ?_⟩
      rw [← List.append_assoc, ← hseen]
      exact hrest

end
end Life

theorem filterMap_verdict (result : Except FrameError (Option Frame)) :
    (verdict result).filterMap Except.toOption = frames result := by
  rcases result with cause | _ | frame
  · cases cause <;> rfl
  · rfl
  · rfl

theorem flatMap_frames_of_verdict {seen : List (Except FrameError (Option Frame))}
    {found : List Frame} (h : seen.flatMap verdict = found.map .ok) :
    seen.flatMap frames = found := by
  calc seen.flatMap frames
      = (seen.flatMap verdict).filterMap Except.toOption := by
        simp only [List.filterMap_flatMap, filterMap_verdict]
    _ = (found.map .ok).filterMap Except.toOption := by rw [h]
    _ = found := by
        rw [List.filterMap_map]
        exact List.filterMap_some

/-- Reads in vain, then an answer, then those of a bridge over its whole life. -/
structure HandedOver {η : Type} [Host η] (asked : Endpoint)
    (before : List (Except FrameError (Option Frame))) (answer : Frame) (bridge : Bridge η)
    (turns : List Life.Turn) : Prop where
  /-- The worker goes on with the reads that the negotiation has left off. -/
  seamless : asked.play (List.replicate (before.length + 1) .read ++
      Life.footprints { bridge } turns) =
    (before ++ .ok (some answer) :: (Life.run { bridge } turns).seen,
      (Life.run { bridge } turns).bridge.endpoint)
  /-- Its frames stand behind the answer, in order. -/
  behind : ∃ used octets later,
    Frame.StandsFor asked.reader.config.protocol octets answer ∧
    Frame.Carries asked.reader.config.protocol later (Life.run { bridge } turns).delivered ∧
    asked.upcoming = used ++ octets ++ bridge.endpoint.upcoming ∧
    bridge.endpoint.upcoming ++ bridge.endpoint.reach (turns.flatMap Life.Turn.arrivals) =
      later ++ (Life.run { bridge } turns).bridge.endpoint.upcoming
  /-- Of a stream of encoded frames it gets just those behind the answer, or they still wait. -/
  complete : ∀ config, config.validate = .ok () → asked.reader.Sound config →
    Link.Fits asked.link.kind (max config.ringCapacity Link.maxDatagram)
      (asked.link.arrivals ++ turns.flatMap Life.Turn.arrivals) →
    ∀ stream : List Frame, (∀ frame ∈ stream, frame.Accepted config) →
    asked.reader.waiting ++
        (asked.link.octets ++ (turns.flatMap Life.Turn.arrivals).flatMap Arrival.octets) =
      stream.flatMap (Frame.wire config.protocol) →
    ∃ missing, stream = before.flatMap frames ++
        answer :: ((Life.run { bridge } turns).delivered ++ missing) ∧
      (Life.run { bridge } turns).bridge.endpoint.reader.waiting ++
          (Life.run { bridge } turns).bridge.endpoint.link.octets =
        missing.flatMap (Frame.wire config.protocol)

section
variable {η : Type} [Host η] {asked : Endpoint}
  {before : List (Except FrameError (Option Frame))} {answer : Frame} {bridge : Bridge η}

theorem seamless_of_answer
    (hanswer : asked.play (List.replicate (before.length + 1) .read) =
      (before ++ [.ok (some answer)], bridge.endpoint)) (turns : List Life.Turn) :
    asked.play (List.replicate (before.length + 1) .read ++ Life.footprints { bridge } turns) =
      (before ++ .ok (some answer) :: (Life.run { bridge } turns).seen,
        (Life.run { bridge } turns).bridge.endpoint) := by
  obtain ⟨hendpoint, hseen⟩ := Life.play_footprints { bridge } turns
  rw [Endpoint.play_append, hanswer]
  dsimp only at hendpoint hseen ⊢
  rw [hendpoint, hseen, List.append_assoc]
  rfl

/-- The last of the reads up to an answer uses up the octets of the answer and nothing more. -/
theorem upcoming_of_answer {ready : Endpoint}
    (hanswer : asked.play (List.replicate (before.length + 1) .read) =
      (before ++ [.ok (some answer)], ready)) :
    ∃ used octets, Frame.StandsFor asked.reader.config.protocol octets answer ∧
      asked.upcoming = used ++ octets ++ ready.upcoming := by
  have hcontinues := asked.continues_play (List.replicate before.length .read)
  rw [List.replicate_succ', Endpoint.play_append] at hanswer
  rw [Endpoint.arrivals_replicate_read] at hcontinues
  generalize asked.play (List.replicate before.length .read) = middle at hanswer hcontinues
  obtain ⟨hseen, rfl⟩ := Prod.mk.inj hanswer
  have hlast : middle.2.read.1 = .ok (some answer) :=
    List.singleton_inj.mp (List.append_inj' hseen rfl).2
  obtain ⟨gap, octets, hstands, hbehind⟩ := Reader.upcoming_of_readFrame hlast
  obtain ⟨used, hused, -⟩ := hcontinues.stream
  rw [hcontinues.config] at hstands
  refine ⟨used ++ gap, octets, hstands, ?_⟩
  rw [Endpoint.reach, List.flatMap_nil, List.append_nil] at hused
  calc asked.upcoming
      = used ++ middle.2.upcoming := hused
    _ = used ++ (gap ++ octets ++ middle.2.read.2.upcoming) := congrArg (used ++ ·) hbehind
    _ = used ++ gap ++ octets ++ middle.2.read.2.upcoming := by simp only [List.append_assoc]

theorem handedOver_of_answer
    (hanswer : asked.play (List.replicate (before.length + 1) .read) =
      (before ++ [.ok (some answer)], bridge.endpoint)) (turns : List Life.Turn) :
    HandedOver asked before answer bridge turns := by
  have hseamless := seamless_of_answer hanswer turns
  have harrivals : (List.replicate (before.length + 1) Endpoint.Move.read ++
      Life.footprints { bridge } turns).flatMap Endpoint.Move.arrivals =
      turns.flatMap Life.Turn.arrivals := by
    rw [List.flatMap_append, Endpoint.arrivals_replicate_read, Life.arrivals_footprints,
      List.nil_append]
  refine ⟨hseamless, ?_, ?_⟩
  · obtain ⟨used, octets, hstands, hbehind⟩ := upcoming_of_answer hanswer
    have hearlier := asked.continues_play (List.replicate (before.length + 1) .read)
    have hcontinues := bridge.endpoint.continues_play (Life.footprints { bridge } turns)
    obtain ⟨hendpoint, hseen⟩ := Life.play_footprints { bridge } turns
    dsimp only at hendpoint hseen
    rw [hanswer] at hearlier
    rw [hendpoint, Life.arrivals_footprints] at hcontinues
    obtain ⟨later, hlater, hcarries⟩ := hcontinues.stream
    rw [hearlier.config] at hcarries
    refine ⟨used, octets, later, hstands, ?_, hbehind, hlater⟩
    rw [Life.delivered_eq, hseen]
    exact hcarries
  · intro config hvalid hsound hfits stream haccepted hstream
    have hmeaning : Encoded config (asked.reader.waiting ++ (asked.link.octets ++
        (turns.flatMap Life.Turn.arrivals).flatMap Arrival.octets)) (stream.map .ok) :=
      ⟨stream, haccepted, hstream, rfl⟩
    rw [← harrivals] at hfits hmeaning
    obtain ⟨later, houtcomes, missing, -, hleft, rfl⟩ :=
      Endpoint.play_outcomes hvalid (follows_encoded hvalid) hsound hfits hmeaning
    rw [hseamless] at houtcomes hleft
    refine ⟨missing, ?_, hleft⟩
    rw [List.flatMap_append, List.flatMap_cons, List.append_assoc, List.append_assoc] at houtcomes
    obtain ⟨front, others, rfl, hfront, hothers⟩ := List.map_eq_append_iff.mp houtcomes
    obtain ⟨found, others, rfl, hfound, hothers⟩ := List.map_eq_append_iff.mp hothers
    obtain ⟨delivered, rest, rfl, hdelivered, hrest⟩ := List.map_eq_append_iff.mp hothers
    obtain rfl : rest = missing := (List.map_inj_right fun _ _ => Except.ok.inj).mp hrest
    obtain rfl : found = [answer] := (List.map_inj_right fun _ _ => Except.ok.inj).mp hfound
    rw [flatMap_frames_of_verdict hfront.symm, Life.delivered_eq,
      flatMap_frames_of_verdict hdelivered.symm]
    rfl

end

namespace Negotiation

/-- After the question has been written the results of the reads within the wait decide alone. The
first frame on the topic of answers gives the table, an earlier end of the link its error, and
neither the error that the wait is over. A bridge that starts with the table reads on behind the
answer: nothing that follows it is lost, and nothing is dispatched twice. What arrives within the
wait is queued on the link, as `Endpoint.exists_play_expecting` allows. -/
theorem first_answer_decides (wait : Duration) (reads : Endpoint → Nat) {endpoint asked : Endpoint}
    {size : Nat} (hasked : endpoint.write Topic.request [] = (.ok size, asked)) :
    let seen := (asked.play (List.replicate (reads asked) .read)).1
    let after (count : Nat) := (asked.play (List.replicate count .read)).2
    (∀ result ∈ seen, Passed Topic.response result ∨
      (∃ frame, result = .ok (some frame) ∧ frame.topic = Topic.response) ∨
      result = .error (.link .closed)) ∧
    ((∀ result ∈ seen, Passed Topic.response result) →
      negotiate wait reads endpoint =
        (.error (.negotiationTimeout wait), after (reads asked))) ∧
    (∀ before rest, seen = before ++ .error (.link .closed) :: rest →
      (∀ earlier ∈ before, Passed Topic.response earlier) →
      negotiate wait reads endpoint =
        (.error (.frame (.link .closed)), after (before.length + 1))) ∧
    ∀ before answer rest, seen = before ++ .ok (some answer) :: rest →
      (∀ earlier ∈ before, Passed Topic.response earlier) → answer.topic = Topic.response →
      negotiate wait reads endpoint =
        (MappingMessage.decode answer.payload >>= Table.ofMessage, after (before.length + 1)) ∧
      ∀ {η : Type} [Host η] (table : Table) (host : η) (bridge : Bridge η)
        (turns : List Life.Turn),
        MappingMessage.decode answer.payload >>= Table.ofMessage = .ok table →
        Bridge.start (after (before.length + 1)) table host = .ok bridge →
        let life := Life.run { bridge } turns
        HandedOver asked before answer bridge turns ∧
        life.delivered = life.handled ++ life.bridge.worker.inHand ∧
        (publishAll (life.handled.filterMap table.delivery) bridge.host).2 = life.bridge.host := by
  intro seen after
  refine ⟨?_, ?_, ?_, ?_⟩
  · refine Endpoint.forall_mem_play ?_ asked _
    exact passed_or_heard Topic.response
  · intro hpassed
    rw [negotiate_of_asked hasked, await_of_passed hpassed]
    rfl
  · intro before rest hseen hbefore
    have hheard : heard Topic.response (.error (.link .closed)) =
        some (.error (.frame (.link .closed))) := rfl
    obtain ⟨hawait, -⟩ := await_of_heard hseen hbefore hheard
    rw [negotiate_of_asked hasked, hawait]
    rfl
  · intro before answer rest hseen hbefore htopic
    have hheard : heard Topic.response (.ok (some answer)) = some (.ok answer.payload) := by
      rw [heard, if_pos htopic]
    obtain ⟨hawait, hupto⟩ := await_of_heard hseen hbefore hheard
    refine ⟨?_, ?_⟩
    · rw [negotiate_of_asked hasked, hawait]
      rfl
    · intro η _ table host bridge turns htable hstart life
      obtain ⟨_, hmessage⟩ := Table.exists_of_bind_eq_ok htable
      have hbuilt : table.Built := .message hmessage
      obtain ⟨later, rfl⟩ := Bridge.exists_of_start hstart
      have hbooked : life.Booked table later :=
        Life.Booked.run hbuilt.proper (Life.booked_start later _) turns
      exact ⟨handedOver_of_answer (Prod.ext hupto rfl) turns, hbooked.inOrder, hbooked.asked⟩

end Negotiation

/-- A stray frame, an answer and a frame for the bridge. -/
def Frame.trio : List Frame :=
  [⟨7, 0, [1]⟩, ⟨Topic.response, 1, Table.empty.toMessage.encode⟩, ⟨5, 2, [9]⟩]

/-- All three in one datagram. -/
def Link.answering : Link :=
  { Link.datagram with arrivals := [.chunk (Frame.trio.flatMap (Frame.wire .px4))] }

theorem Negotiation.first_answer_decides_datagram :
    ∃ endpoint ready bridge, Endpoint.create Link.answering { ringCapacity := 128 } = .ok endpoint ∧
      negotiate (.ofMillis 50) (fun _ => 2) endpoint = (.ok Table.empty, ready) ∧
      Bridge.start ready Table.empty ({} : Recorder) = .ok bridge ∧
      (Life.run { bridge } (List.replicate 3 .work)).delivered = [⟨5, 2, [9]⟩] := by
  have hvalid : FrameConfig.validate { ringCapacity := 128 } = .ok () := by decide
  have htakes : Link.answering.Takes 128 := fun _ _ => rfl
  obtain ⟨endpoint, hcreate, hready, hlink⟩ := Endpoint.exists_create hvalid htakes
  have hempty : ([] : Bytes).length ≤ FrameConfig.effectiveMaxPayload { ringCapacity := 128 } :=
    Nat.zero_le _
  obtain ⟨asked, hasked, hasking, hsent⟩ := hready.write_of_le hvalid Topic.request hempty
  obtain ⟨-, -, -, hanswer⟩ := first_answer_decides (.ofMillis 50) (fun _ => 2) hasked
  have hseen : (asked.play (List.replicate 2 .read)).1 = [.ok (some ⟨7, 0, [1]⟩)] ++
      .ok (some ⟨Topic.response, 1, Table.empty.toMessage.encode⟩) :: [] := by
    have hrun : (Endpoint.create Link.answering { ringCapacity := 128 }).map (fun endpoint =>
        ((endpoint.write Topic.request []).2.play (List.replicate 2 .read)).1) = .ok
        [.ok (some ⟨7, 0, [1]⟩),
          .ok (some ⟨Topic.response, 1, Table.empty.toMessage.encode⟩)] := by decide +kernel
    rw [hcreate] at hrun
    simp only [Except.map, hasked] at hrun
    exact Except.ok.inj hrun
  have hpassed : ∀ earlier ∈ [Except.ok (some (⟨7, 0, [1]⟩ : Frame))],
      Passed Topic.response earlier :=
    List.forall_mem_singleton.mpr (.other (by decide))
  have htable : MappingMessage.decode Table.empty.toMessage.encode >>= Table.ofMessage =
      .ok Table.empty := by decide +kernel
  obtain ⟨hnegotiate, hlife⟩ := hanswer _ _ _ hseen hpassed rfl
  obtain ⟨bridge, hstart⟩ : ∃ bridge, Bridge.start (asked.play (List.replicate 2 .read)).2
      Table.empty ({} : Recorder) = .ok bridge := ⟨_, rfl⟩
  obtain ⟨hover, -, -⟩ := hlife Table.empty {} bridge (List.replicate 3 .work) htable hstart
  have hlink : asked.link.kind = .datagram ∧
      asked.link.arrivals = [.chunk (Frame.trio.flatMap (Frame.wire .px4))] := by
    rw [hsent, hlink]
    exact ⟨rfl, rfl⟩
  have hfits : Link.Fits asked.link.kind (max 128 Link.maxDatagram)
      (asked.link.arrivals ++ []) := by
    rw [hlink.2]
    rintro - data hdata
    obtain rfl := Arrival.chunk.inj (List.mem_singleton.mp hdata)
    decide +kernel
  have haccepted : ∀ frame ∈ Frame.trio, frame.Accepted { ringCapacity := 128 } :=
    List.forall_mem_cons.mpr ⟨⟨by decide, fun _ => by decide⟩,
      List.forall_mem_cons.mpr ⟨⟨by decide +kernel, fun _ => by decide⟩,
        List.forall_mem_singleton.mpr ⟨by decide, fun _ => by decide⟩⟩⟩
  have hstream : asked.reader.waiting ++ (asked.link.octets ++ []) =
      Frame.trio.flatMap (Frame.wire .px4) := by
    rw [hasking.drained, Link.octets, hlink.2]
    simp [Arrival.octets]
  have hnothing : (Life.run { bridge } (List.replicate 3 .work)).bridge.endpoint.reader.waiting ++
      (Life.run { bridge } (List.replicate 3 .work)).bridge.endpoint.link.octets = [] := by
    have hrun : ((Endpoint.create Link.answering { ringCapacity := 128 }).toOption.bind
        fun endpoint =>
          (Bridge.start ((endpoint.write Topic.request []).2.play (List.replicate 2 .read)).2
            Table.empty ({} : Recorder)).toOption.map fun bridge =>
              let last := (Life.run { bridge } (List.replicate 3 .work)).bridge.endpoint
              last.reader.waiting ++ last.link.octets) = some [] := by decide +kernel
    rw [hcreate] at hrun
    simp only [Except.toOption, Option.bind_some, hasked, hstart, Option.map_some] at hrun
    exact Option.some.inj hrun
  obtain ⟨missing, hsplit, hleft⟩ := hover.complete _ hvalid hasking.sound hfits _ haccepted hstream
  refine ⟨endpoint, _, bridge, hcreate, ?_, hstart, ?_⟩
  · rw [hnegotiate, htable]
    rfl
  · rw [hnothing] at hleft
    obtain rfl : missing = [] := by
      cases missing with
      | nil => rfl
      | cons frame rest =>
          exact absurd (List.append_eq_nil_iff.mp hleft.symm).1 (frame.wire_ne_nil _)
    have hrest := (List.cons.inj (List.cons.inj hsplit).2).2
    rw [List.append_nil] at hrest
    exact hrest.symm

end TopicBridge
