import TopicBridge.Proofs.Closing
import TopicBridge.Proofs.Dispatching

/-! How a bridge is brought down. The worker that is told to stop has little left to do, the owner
waits for it before the link is closed, and when a shutdown has returned nothing is read, handed on
or sent any more. -/
namespace TopicBridge

namespace Bridge

/-- Reads that a worker may still make before it looks at the flag again. -/
def readsLeft : Worker → Nat
  | .reading => 1
  | _ => 0

/-- Frames that a worker may still hand on before it looks at the flag again. -/
def handsLeft : Worker → Nat
  | .reading => 1
  | .holding _ => 1
  | _ => 0

theorem left_le_one (worker : Worker) : readsLeft worker ≤ 1 ∧ handsLeft worker ≤ 1 := by
  cases worker with
  | reading => exact ⟨Nat.le_refl 1, Nat.le_refl 1⟩
  | holding => exact ⟨Nat.zero_le 1, Nat.le_refl 1⟩
  | checking | pausing | failing | ended | crashed => exact ⟨Nat.zero_le 1, Nat.zero_le 1⟩

theorem left_afterRead (result : Except FrameError (Option Frame)) :
    readsLeft (afterRead result) = 0 ∧ handsLeft (afterRead result) ≤ 1 := by
  rcases result with cause | _ | frame
  · rcases (leads_afterRead cause).worker with h | h | h <;> rw [h] <;> exact ⟨rfl, Nat.zero_le 1⟩
  · exact ⟨rfl, Nat.zero_le 1⟩
  · exact ⟨rfl, Nat.le_refl 1⟩

variable {η : Type} [Host η] {bridge next : Bridge η} {deeds : List Happening}

theorem Dispatches.left {frame : Frame} (h : bridge.Dispatches frame next) :
    readsLeft next.worker = 0 ∧ handsLeft next.worker = 0 := by
  rcases h.worker with h | h <;> rw [h] <;> exact ⟨rfl, rfl⟩

/-- With the flag raised the worker gets nothing new to do: what a step does it takes from what
was left. -/
theorem Works.left_le (h : bridge.Works deeds next) (hcancelled : bridge.cancelled = true) :
    deeds.countP Happening.isRead + readsLeft next.worker ≤ readsLeft bridge.worker ∧
      (deeds.flatMap Happening.handled).length + handsLeft next.worker ≤
        handsLeft bridge.worker := by
  cases h with
  | stopping | rested | gaveUp => exact ⟨Nat.zero_le _, Nat.zero_le _⟩
  | going _ hgoing => simp [hcancelled] at hgoing
  | read hworker =>
      obtain ⟨hreads, hhands⟩ := left_afterRead bridge.endpoint.read.1
      rw [hworker]
      dsimp only
      rw [hreads]
      refine ⟨Nat.le_refl 1, ?_⟩
      exact (Nat.zero_add _).le.trans hhands
  | dispatched hworker =>
      obtain ⟨hreads, hhands⟩ := (bridge.dispatches_dispatch _).left
      rw [hworker, hreads, hhands]
      exact ⟨Nat.le_refl 0, Nat.le_refl 1⟩
  | idle => exact ⟨(Nat.zero_add _).le, (Nat.zero_add _).le⟩

end Bridge

namespace Life
variable {η : Type}

def Turn.isWork : Turn → Bool
  | .work => true
  | _ => false

def reads (life : Life η) : Nat := life.log.countP Happening.isRead

variable [Host η] {life later : Life η} {turn : Turn}

theorem aside_turn (life : Life η) {turn : Turn} (h : turn.isWork = false) :
    (life.turn turn).bridge.worker = life.bridge.worker ∧ (life.turn turn).reads = life.reads ∧
      (life.turn turn).handled = life.handled := by
  have htakes := life.takes_turn turn
  generalize life.turn turn = next at htakes
  cases htakes with
  | worked => cases h
  | again | raised | closed | marked =>
      refine ⟨rfl, ?_, ?_⟩
      · simp [reads, Happening.isRead]
      · simp [handled, Happening.handled]
  | joined | sent | changed | idle => exact ⟨rfl, rfl, rfl⟩

theorem cancelled_turn (h : life.bridge.cancelled = true) (turn : Turn) :
    (life.turn turn).bridge.cancelled = true := by
  have htakes := life.takes_turn turn
  generalize life.turn turn = next at htakes
  cases htakes with
  | worked =>
      dsimp only
      rw [Bridge.cancelled_step, h]
  | raised => rfl
  | again | joined | closed | marked | sent | changed | idle => exact h

/-- A worker that is told to stop does no more than was left to it. -/
structure WindsDown (life later : Life η) (works : Nat) : Prop where
  reads : later.reads + Bridge.readsLeft later.bridge.worker ≤
    life.reads + Bridge.readsLeft life.bridge.worker
  hands : later.handled.length + Bridge.handsLeft later.bridge.worker ≤
    life.handled.length + Bridge.handsLeft life.bridge.worker
  steps : Bridge.stepsLeft later.bridge.worker ≤ Bridge.stepsLeft life.bridge.worker - works

theorem windsDown_turn (h : life.bridge.cancelled = true) (turn : Turn) :
    life.WindsDown (life.turn turn) (if turn.isWork then 1 else 0) := by
  cases hwork : turn.isWork with
  | false =>
      obtain ⟨hworker, hreads, hhandled⟩ := life.aside_turn hwork
      refine ⟨?_, ?_, ?_⟩
      · rw [hworker, hreads]
      · rw [hworker, hhandled]
      · rw [hworker]
        exact Nat.le_refl _
  | true =>
      cases turn with
      | work =>
          obtain ⟨hreads, hhands⟩ := life.bridge.works_step.left_le h
          refine ⟨?_, ?_, life.bridge.works_step.stepsLeft_le h⟩
          · rw [Life.turn, Life.reads, List.countP_append]
            dsimp only
            rw [Nat.add_assoc]
            exact Nat.add_le_add_left hreads _
          · rw [Life.turn, handled, List.flatMap_append, List.length_append]
            dsimp only
            rw [Nat.add_assoc]
            exact Nat.add_le_add_left hhands _
      | call | proceed | send | outside => cases hwork

theorem windsDown_run (h : life.bridge.cancelled = true) (more : List Turn) :
    life.WindsDown (life.run more) (more.countP Turn.isWork) := by
  induction more generalizing life with
  | nil => exact ⟨Nat.le_refl _, Nat.le_refl _, Nat.le_refl _⟩
  | cons turn more ih =>
      have hfirst := windsDown_turn h turn
      have hrest := ih (cancelled_turn h turn)
      refine ⟨hrest.reads.trans hfirst.reads, hrest.hands.trans hfirst.hands, ?_⟩
      have hfirst := hfirst.steps
      have hrest := hrest.steps
      rw [List.countP_cons]
      change Bridge.stepsLeft ((life.turn turn).run more).bridge.worker ≤ _
      omega

end Life

/-- A stage stays or gives way to the next one. -/
inductive Stage.Moves : Stage → Stage → Prop
  | stays (stage : Stage) : Moves stage stage
  | stopping : Moves .running .shuttingDown
  | stopped : Moves .shuttingDown .stopped

namespace Bridge
variable {η : Type} {bridge : Bridge η} {owner : Owner}

structure Down (bridge : Bridge η) : Prop where
  stopped : bridge.stage = .stopped
  settled : bridge.worker.isAlive = false
  closed : bridge.endpoint.link.closed = true

/-- How far the owner has come with a bridge. -/
inductive Lowered (bridge : Bridge η) : Owner → Prop
  | running : bridge.stage = .running → Lowered bridge .free
  | joining {ending : Ending} : bridge.stage = .shuttingDown → Lowered bridge (.joining ending)
  | closing {ending : Ending} {summary : Summary} : bridge.stage = .shuttingDown →
      bridge.worker.isAlive = false → Lowered bridge (.closing ending summary)
  | marking {ending : Ending} {result : Except BridgeError Summary} :
      bridge.stage = .shuttingDown → bridge.worker.isAlive = false →
      bridge.endpoint.link.closed = true → Lowered bridge (.marking ending result)
  | free : bridge.Down → Lowered bridge .free
  | gone : bridge.Down → Lowered bridge .gone

theorem Down.lowered (h : bridge.Down) (ending : Ending) : bridge.Lowered ending.owner := by
  cases ending with
  | shutdown => exact .free h
  | drop => exact .gone h

theorem Lowered.down (h : bridge.Lowered owner) (hstopped : bridge.stage = .stopped) :
    bridge.Down ∧ (owner = .free ∨ owner = .gone) := by
  cases h with
  | running hstage | joining hstage | closing hstage | marking hstage =>
      rw [hstopped] at hstage
      cases hstage
  | free hdown => exact ⟨hdown, .inl rfl⟩
  | gone hdown => exact ⟨hdown, .inr rfl⟩

theorem Lowered.relink (h : bridge.Lowered owner) (endpoint : Endpoint)
    (hclosed : bridge.endpoint.link.closed = true → endpoint.link.closed = true) :
    Lowered { bridge with endpoint } owner := by
  cases h with
  | running hstage => exact .running hstage
  | joining hstage => exact .joining hstage
  | closing hstage hsettled => exact .closing hstage hsettled
  | marking hstage hsettled hlink => exact .marking hstage hsettled (hclosed hlink)
  | free hdown => exact .free ⟨hdown.stopped, hdown.settled, hclosed hdown.closed⟩
  | gone hdown => exact .gone ⟨hdown.stopped, hdown.settled, hclosed hdown.closed⟩

theorem Down.send (h : bridge.Down) (topic : OutboundTopic) {payload : Bytes}
    (hfits : payload.length ≤ bridge.endpoint.writer.maxPayload) :
    bridge.send topic payload =
      (.error (.frame (.link .closed)),
        { bridge with
          endpoint := { bridge.endpoint with writer := bridge.endpoint.writer.drop } }) := by
  rw [Bridge.send, Endpoint.write_of_closed h.closed topic.topicId hfits]
  rfl

theorem sends_send (bridge : Bridge η) (topic : OutboundTopic) (payload : Bytes) :
    bridge.endpoint.link.Sends (bridge.send topic payload).2.endpoint.link :=
  bridge.endpoint.sends_write topic.topicId payload

variable [Host η]

theorem mem_of_mem_deeds {log : List Happening} {happening : Happening}
    (hdeed : happening.isDeed = false) (h : happening ∈ log ++ bridge.deeds) :
    happening ∈ log := by
  have hworks := bridge.works_step
  generalize bridge.deeds = deeds, bridge.step = next at h hworks
  cases hworks with
  | idle => exact List.append_nil log ▸ h
  | stopping | going | read | dispatched | rested | gaveUp =>
      rw [List.mem_append, List.mem_singleton] at h
      rcases h with h | rfl
      · exact h
      · cases hdeed

theorem Lowered.worked (h : bridge.Lowered owner) : bridge.step.Lowered owner := by
  cases hsettled : bridge.worker.isAlive with
  | false =>
      rw [step_of_ended hsettled]
      exact h
  | true =>
      cases h with
      | running hstage => exact .running (stage_step.trans hstage)
      | joining hstage => exact .joining (stage_step.trans hstage)
      | closing _ hover | marking _ hover =>
          rw [hsettled] at hover
          cases hover
      | free hdown | gone hdown =>
          rw [hdown.settled] at hsettled
          cases hsettled

theorem Down.shutdown (h : bridge.Down) : bridge.shutdown = (.ok {}, bridge) := by
  rw [Bridge.shutdown, if_pos h.stopped]

end Bridge

namespace Life
variable {η : Type} {life : Life η}

/-- What holds of a bridge all along while it is brought down. -/
structure Lowering (life : Life η) : Prop where
  stands : life.bridge.Lowered life.owner
  closed : .closed ∈ life.log → life.bridge.worker.isAlive = false
  returned : ∀ result, .returned result ∈ life.log → life.bridge.stage = .stopped

/-- All that is to come once a shutdown has returned: more calls that do nothing. -/
structure Over (life later : Life η) : Prop where
  down : later.bridge.Down
  owner : later.owner = .free ∨ later.owner = .gone
  log : ∃ calls, later.log = life.log ++ List.replicate calls (.returned (.ok {}))
  kept : later.bridge = { life.bridge with endpoint := later.bridge.endpoint }
  sent : later.bridge.endpoint.link.sent = life.bridge.endpoint.link.sent

theorem Over.relink {later : Life η} (h : life.Over later) (endpoint : Endpoint)
    (hclosed : endpoint.link.closed = true)
    (hsent : endpoint.link.sent = later.bridge.endpoint.link.sent) :
    life.Over { later with bridge := { later.bridge with endpoint } } := by
  refine ⟨⟨h.down.stopped, h.down.settled, hclosed⟩, h.owner, h.log, ?_, hsent.trans h.sent⟩
  rw [h.kept]

theorem Lowering.over (h : life.Lowering) {result : Except BridgeError Summary}
    (hreturned : .returned result ∈ life.log) : life.Over life := by
  obtain ⟨hdown, howner⟩ := h.stands.down (h.returned result hreturned)
  exact ⟨hdown, howner, ⟨0, (List.append_nil _).symm⟩, rfl, rfl⟩

variable [Host η] {next : Life η} {turn : Turn}

theorem Lowering.takes (h : life.Lowering) (htakes : life.Takes turn next) : next.Lowering := by
  obtain ⟨hstands, hclosed, hreturned⟩ := h
  cases htakes with
  | worked =>
      refine ⟨hstands.worked, ?_, ?_⟩
      · intro hlog
        have hsettled := hclosed (Bridge.mem_of_mem_deeds rfl hlog)
        rw [Bridge.step_of_ended hsettled, hsettled]
      · intro result hlog
        exact Bridge.stage_step.trans (hreturned result (Bridge.mem_of_mem_deeds rfl hlog))
  | again ending howner hstopped =>
      obtain ⟨hdown, -⟩ := hstands.down hstopped
      exact ⟨hdown.lowered ending, fun _ => hdown.settled, fun _ _ => hstopped⟩
  | raised ending howner hrunning =>
      refine ⟨.joining rfl, ?_, ?_⟩
      · intro hlog
        exact hclosed (by simpa using hlog)
      · intro result hlog
        exact absurd (hreturned result (by simpa using hlog)) hrunning
  | joined howner hover =>
      rw [howner] at hstands
      cases hstands with
      | joining hstage => exact ⟨.closing hstage hover, hclosed, hreturned⟩
  | closed howner =>
      rw [howner] at hstands
      cases hstands with
      | closing hstage hover =>
          refine ⟨.marking hstage hover rfl, fun _ => hover, ?_⟩
          intro result hlog
          exact hreturned result (by simpa using hlog)
  | @marked ending result howner =>
      rw [howner] at hstands
      cases hstands with
      | marking hstage hover hlink =>
          have hdown : Bridge.Down { life.bridge with stage := .stopped } := ⟨rfl, hover, hlink⟩
          exact ⟨hdown.lowered ending, fun _ => hover, fun _ _ => rfl⟩
  | sent topic payload =>
      have hsends := life.bridge.sends_send topic payload
      exact ⟨hstands.relink (life.bridge.send topic payload).2.endpoint hsends.closed.trans,
        hclosed, hreturned⟩
  | changed outside =>
      exact ⟨hstands.relink (life.bridge.touch outside).endpoint outside.closed_change, hclosed,
        hreturned⟩
  | idle => exact ⟨hstands, hclosed, hreturned⟩

theorem Lowering.run (h : life.Lowering) (turns : List Turn) : (life.run turns).Lowering :=
  run_induction h (fun htakes hlife => hlife.takes htakes) turns

theorem Lowering.moves (h : life.Lowering) (htakes : life.Takes turn next) :
    life.bridge.stage.Moves next.bridge.stage := by
  have hstands := h.stands
  cases htakes with
  | worked =>
      dsimp only
      rw [Bridge.stage_step]
      exact .stays _
  | raised _ howner hrunning =>
      rw [howner] at hstands
      cases hstands with
      | running hstage =>
          rw [hstage]
          exact .stopping
      | free hdown => exact absurd hdown.stopped hrunning
  | marked howner =>
      rw [howner] at hstands
      cases hstands with
      | marking hstage =>
          rw [hstage]
          exact .stopped
  | again | joined | closed | sent | changed | idle => exact .stays _

theorem Over.takes {later : Life η} (h : life.Over later) (htakes : later.Takes turn next) :
    life.Over next := by
  have ⟨hdown, howner, ⟨calls, hlog⟩, hkept, hsent⟩ := h
  cases htakes with
  | worked =>
      rw [Bridge.step_of_ended hdown.settled, Bridge.deeds_of_settled hdown.settled,
        List.append_nil]
      exact ⟨hdown, howner, ⟨calls, hlog⟩, hkept, hsent⟩
  | again ending _ _ =>
      refine ⟨hdown, ?_, ⟨calls + 1, ?_⟩, hkept, hsent⟩
      · cases ending with
        | shutdown => exact .inl rfl
        | drop => exact .inr rfl
      · rw [hlog, List.append_assoc, List.replicate_succ']
  | raised _ _ hrunning => exact absurd hdown.stopped hrunning
  | joined hbusy _ | closed hbusy | marked hbusy =>
      rcases howner with howner | howner <;> rw [howner] at hbusy <;> cases hbusy
  | sent topic payload =>
      have hlink := (later.bridge.sends_send topic payload).eq_of_closed hdown.closed
      refine h.relink (later.bridge.send topic payload).2.endpoint ?_ ?_
      · rw [hlink, hdown.closed]
      · rw [hlink]
  | changed outside =>
      exact h.relink (later.bridge.touch outside).endpoint (outside.closed_change hdown.closed)
        (outside.sent_change _)
  | idle => exact ⟨hdown, howner, ⟨calls, hlog⟩, hkept, hsent⟩

theorem Over.run {later : Life η} (h : life.Over later) (more : List Turn) :
    life.Over (later.run more) :=
  run_induction h (fun htakes hlater => hlater.takes htakes) more

end Life

end TopicBridge
