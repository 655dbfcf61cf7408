import TopicBridge.Host.Recorder
import TopicBridge.Proofs.Stopping

/-! The shutdown protocol. No worker sees its link closed by the bridge, so where nobody else closes
it no summary blames it; with that all that a shutdown promises holds in every order of events. -/
namespace TopicBridge

def Owner.held? : Owner → Option Summary
  | .closing _ summary => some summary
  | .marking _ result => result.toOption
  | _ => none

theorem held?_owner (ending : Ending) : ending.owner.held? = none := by
  cases ending <;> rfl

namespace Bridge
variable {η : Type} {bridge : Bridge η}

/-- What holds of a bridge as long as nobody else closes its link. -/
structure Unharmed (bridge : Bridge η) : Prop where
  link : bridge.worker.isAlive = true → bridge.endpoint.link.Unbroken
  worker : bridge.worker ≠ .failing
  summary : bridge.summary.linkFailed = false

theorem linkFailed_of_isAlive (h : bridge.worker.isAlive = true) :
    bridge.summary.linkFailed = false := by
  rw [summary]
  cases hworker : bridge.worker with
  | ended =>
      rw [hworker] at h
      cases h
  | checking | reading | holding | pausing | failing | crashed => rfl

theorem Unharmed.relink (h : bridge.Unharmed) (endpoint : Endpoint)
    (hlink : bridge.worker.isAlive = true → endpoint.link.Unbroken) :
    Unharmed { bridge with endpoint } :=
  ⟨hlink, h.worker, h.summary⟩

/-- A read over a link that nobody has closed takes no worker down. -/
theorem Unharmed.read (hlink : bridge.endpoint.link.Unbroken) :
    Unharmed { bridge with
      endpoint := bridge.endpoint.read.2
      worker := afterRead bridge.endpoint.read.1 } := by
  obtain ⟨htransient, hnext⟩ := bridge.endpoint.reader.isTransient_readFrame hlink
  refine ⟨fun _ => hnext, ?_, linkFailed_of_isAlive (isAlive_afterRead _)⟩
  intro hfailing
  obtain ⟨cause, hcause, hlasting⟩ := exists_of_afterRead hfailing
  rw [htransient cause hcause] at hlasting
  cases hlasting

variable [Host η]

theorem Unharmed.dispatched {next : Bridge η} {frame : Frame}
    (hlink : bridge.endpoint.link.Unbroken) (h : bridge.Dispatches frame next) :
    next.Unharmed := by
  cases h with
  | unroutable | published | refused => exact ⟨fun _ => hlink, nofun, rfl⟩
  | crashed => exact ⟨fun _ => hlink, nofun, rfl⟩

theorem Unharmed.worked (h : bridge.Unharmed) : bridge.step.Unharmed := by
  have halive : bridge.worker.isAlive = true → bridge.endpoint.link.Unbroken := h.link
  have hworks := bridge.works_step
  generalize bridge.deeds = deeds, bridge.step = next at hworks
  cases hworks with
  | stopping => exact ⟨nofun, nofun, rfl⟩
  | going hworker _ =>
      rw [hworker] at halive
      exact ⟨fun _ => halive rfl, nofun, rfl⟩
  | read hworker =>
      rw [hworker] at halive
      exact .read (halive rfl)
  | dispatched hworker =>
      rw [hworker] at halive
      exact .dispatched (halive rfl) (bridge.dispatches_dispatch _)
  | rested hworker =>
      rw [hworker] at halive
      exact ⟨fun _ => halive rfl, nofun, rfl⟩
  | gaveUp hworker => exact absurd hworker h.worker
  | idle => exact h

end Bridge

namespace Life
variable {η : Type} {life : Life η}

/-- Nobody but the bridge closes the link, and no receive is told that it was closed. -/
def Turn.spares : Turn → Bool
  | .outside .close => false
  | .outside (.arrive (.fault .closed)) => false
  | _ => true

theorem Turn.unbroken_change {outside : Outside} (h : (Turn.outside outside).spares = true)
    {link : Link} (hlink : link.Unbroken) : (outside.change link).Unbroken := by
  cases outside with
  | arrive arrival =>
      refine ⟨hlink.opened, ?_⟩
      rw [Outside.change, Link.arrive, List.mem_append, not_or, List.mem_singleton]
      refine ⟨hlink.quiet, ?_⟩
      rintro rfl
      cases h
  | close => cases h
  | failSend | failClose => exact ⟨hlink.opened, hlink.quiet⟩

/-- What the owner has in hand or was told, as long as nobody else closes the link. -/
structure Spared (life : Life η) : Prop where
  bridge : life.bridge.Unharmed
  held : ∀ summary, life.owner.held? = some summary → summary.linkFailed = false
  returned : ∀ summary, .returned (.ok summary) ∈ life.log → summary.linkFailed = false

/-- The owner's last step, and a call on a bridge that is down. -/
theorem Spared.returns (h : life.Spared) (stage : Stage) (ending : Ending)
    {result : Except BridgeError Summary}
    (hresult : ∀ summary, result = .ok summary → summary.linkFailed = false) :
    Life.Spared
      { bridge := { life.bridge with stage }
        owner := ending.owner
        log := life.log ++ [.returned result] } := by
  refine ⟨⟨h.bridge.link, h.bridge.worker, h.bridge.summary⟩, ?_, ?_⟩
  · intro summary hheld
    rw [held?_owner] at hheld
    cases hheld
  · intro summary hlog
    rcases List.mem_append.mp hlog with hlog | hlog
    · exact h.returned summary hlog
    · cases List.mem_singleton.mp hlog
      exact hresult summary rfl

variable [Host η] {next : Life η} {turn : Turn}

theorem Spared.takes (h : life.Spared) (hlowering : life.Lowering) (hturn : turn.spares = true)
    (htakes : life.Takes turn next) : next.Spared := by
  have ⟨hbridge, hheld, hreturned⟩ := h
  cases htakes with
  | worked =>
      refine ⟨hbridge.worked, hheld, ?_⟩
      intro summary hlog
      exact hreturned summary (Bridge.mem_of_mem_deeds rfl hlog)
  | again ending =>
      apply h.returns life.bridge.stage ending
      rintro _ ⟨⟩
      rfl
  | raised =>
      refine ⟨⟨hbridge.link, hbridge.worker, hbridge.summary⟩, nofun, ?_⟩
      intro summary hlog
      exact hreturned summary (by simpa using hlog)
  | joined =>
      refine ⟨hbridge, ?_, hreturned⟩
      rintro _ ⟨⟩
      exact hbridge.summary
  | @closed ending summary howner =>
      have hstands := hlowering.stands
      rw [howner] at hstands hheld
      cases hstands with
      | closing _ hsettled =>
          refine ⟨hbridge.relink _ ?_, ?_, ?_⟩
          · intro halive
            rw [hsettled] at halive
            cases halive
          · intro last hlast
            apply hheld last
            cases hclose : life.bridge.endpoint.close.1 with
            | error cause =>
                rw [hclose] at hlast
                cases hlast
            | ok _ =>
                rw [hclose] at hlast
                exact hlast
          · intro last hlog
            exact hreturned last (by simpa using hlog)
  | @marked ending result howner =>
      rw [howner] at hheld
      apply h.returns .stopped ending
      rintro summary rfl
      exact hheld summary rfl
  | sent topic payload =>
      have hsends := life.bridge.sends_send topic payload
      refine ⟨hbridge.relink (life.bridge.send topic payload).2.endpoint ?_, hheld, hreturned⟩
      intro halive
      exact hsends.unbroken (hbridge.link halive)
  | changed outside =>
      refine ⟨hbridge.relink (life.bridge.touch outside).endpoint ?_, hheld, hreturned⟩
      intro halive
      exact Turn.unbroken_change hturn (hbridge.link halive)
  | idle => exact ⟨hbridge, hheld, hreturned⟩

theorem Spared.run (h : life.Spared) (hlowering : life.Lowering) {turns : List Turn}
    (hturns : ∀ turn ∈ turns, turn.spares = true) : (life.run turns).Spared := by
  induction turns generalizing life with
  | nil => exact h
  | cons turn turns ih =>
      obtain ⟨hturn, hturns⟩ := List.forall_mem_cons.mp hturns
      have htakes := life.takes_turn turn
      exact ih (h.takes hlowering hturn htakes) (hlowering.takes htakes) hturns

end Life

section
variable {η : Type} (endpoint : Endpoint) (table : Table) (host : η)

theorem Life.lowering_start :
    Life.Lowering { bridge := { endpoint, host, table, routes := table.inbound } } := by
  refine ⟨.running rfl, ?_, ?_⟩
  · intro hlog
    cases hlog
  · intro result hlog
    cases hlog

theorem Life.spared_start (h : endpoint.link.Unbroken) :
    Life.Spared { bridge := { endpoint, host, table, routes := table.inbound } } := by
  refine ⟨⟨fun _ => h, nofun, rfl⟩, ?_, ?_⟩
  · intro summary hheld
    cases hheld
  · intro summary hlog
    cases hlog

end

/-- In every order of what the worker, the owner, senders and the link do, and whatever closing
comes to: once the flag is raised the worker reads and hands on at most one frame more and is at
its end after three steps; the bridge closes the link only behind the worker; the stage only moves
forward; and once a shutdown has returned the bridge is down for good and no send reaches the
link. Where nobody else closes the link no summary says that it failed. -/
theorem Bridge.shutdown_protocol {η : Type} [Host η] {endpoint : Endpoint} {table : Table}
    {host : η} {bridge : Bridge η} (hstart : Bridge.start endpoint table host = .ok bridge)
    (turns more : List Life.Turn) :
    let life := Life.run { bridge } turns
    let later := life.run more
    (.raised ∈ life.log →
      later.reads ≤ life.reads + 1 ∧
      later.handled.length ≤ life.handled.length + 1 ∧
      (3 ≤ more.countP Life.Turn.isWork → later.bridge.worker.isAlive = false)) ∧
    (.closed ∈ life.log → life.bridge.worker.isAlive = false) ∧
    (bridge.stage = .running ∧
      ∀ turn, life.bridge.stage.Moves (life.turn turn).bridge.stage) ∧
    (life.owner = .free → life.bridge.stage ≠ .stopped →
      let last := life.run [.call .shutdown, .work, .work, .work, .proceed, .proceed, .proceed]
      last.bridge = life.bridge.shutdown.2 ∧ last.owner = .free ∧
        last.log.getLast? = some (.returned life.bridge.shutdown.1)) ∧
    (∀ result, .returned result ∈ life.log →
      life.Over later ∧
      later.bridge.shutdown = (.ok {}, later.bridge) ∧
      (∀ ending, later.owner = .free →
        later.turn (.call ending) =
          { later with owner := ending.owner, log := later.log ++ [.returned (.ok {})] }) ∧
      ∀ topic payload, payload.length ≤ later.bridge.endpoint.writer.maxPayload →
        later.bridge.send topic payload =
          (.error (.frame (.link .closed)),
            { later.bridge with
              endpoint :=
                { later.bridge.endpoint with writer := later.bridge.endpoint.writer.drop } })) ∧
    (endpoint.link.Unbroken → (∀ turn ∈ turns, turn.spares = true) →
      (life.bridge.endpoint.link.closed = true → life.bridge.worker.isAlive = false) ∧
      ∀ summary, .returned (.ok summary) ∈ life.log → summary.linkFailed = false) := by
  obtain ⟨next, rfl⟩ := Bridge.exists_of_start hstart
  intro life later
  have hlowering : life.Lowering := (Life.lowering_start endpoint table next).run turns
  have hexplained : life.Explained := (Life.explained_start next table endpoint).run turns
  refine ⟨?_, hlowering.closed, ⟨rfl, fun turn => hlowering.moves (life.takes_turn turn)⟩,
    Life.shutdown_eq_turns, ?_, ?_⟩
  · intro hraised
    have hwinds : life.WindsDown later _ := Life.windsDown_run (hexplained.raised.mpr hraised) more
    obtain ⟨hreads, hhands, hsteps⟩ := hwinds
    obtain ⟨hread, hhand⟩ := Bridge.left_le_one life.bridge.worker
    have hstep := Bridge.stepsLeft_le_three life.bridge.worker
    refine ⟨by omega, by omega, ?_⟩
    intro hworks
    apply Bridge.isAlive_of_stepsLeft
    omega
  · intro result hreturned
    have hover : life.Over later := (hlowering.over hreturned).run more
    refine ⟨hover, hover.down.shutdown, ?_, fun topic _ => hover.down.send topic⟩
    intro ending hfree
    rw [Life.turn, hfree]
    dsimp only
    rw [if_pos hover.down.stopped]
  · intro hlink hturns
    have hspared : life.Spared := (Life.spared_start endpoint table next hlink).run
      (Life.lowering_start endpoint table next) hturns
    refine ⟨?_, hspared.returned⟩
    intro hclosed
    cases hsettled : life.bridge.worker.isAlive with
    | false => rfl
    | true =>
        have hopened := (hspared.bridge.link hsettled).opened
        rw [hclosed] at hopened
        cases hopened

/-- Told to stop with a frame in hand, which it still hands on. -/
theorem Bridge.shutdown_protocol_busy :
    ∃ endpoint bridge summary, Endpoint.create busyLink {} = .ok endpoint ∧
      Bridge.start endpoint Table.imuTable ({} : Recorder) = .ok bridge ∧
      let life := Life.run { bridge }
        [.work, .work, .call .shutdown, .work, .work, .work, .proceed, .proceed, .proceed]
      .returned (.ok summary) ∈ life.log ∧ summary.tally = ⟨1, 0, 0⟩ ∧
        summary.linkFailed = false ∧ life.Over (life.run [.work, .call .drop]) := by
  obtain ⟨endpoint, hcreate⟩ : ∃ endpoint, Endpoint.create busyLink {} = .ok endpoint := ⟨_, rfl⟩
  obtain ⟨bridge, hstart⟩ : ∃ bridge,
      Bridge.start endpoint Table.imuTable ({} : Recorder) = .ok bridge := ⟨_, rfl⟩
  have hseen : (Endpoint.create busyLink {}).toOption.bind (fun endpoint =>
      (Bridge.start endpoint Table.imuTable ({} : Recorder)).toOption.map fun bridge =>
        let begun := (Life.run { bridge } [.work, .work]).bridge
        (endpoint.link, begun.stage, begun.shutdown.1.toOption.map (·.tally))) =
      some (busyLink, .running, some ⟨1, 0, 0⟩) := by decide +kernel
  rw [hcreate] at hseen
  simp only [Except.toOption, Option.bind_some, hstart, Option.map_some, Option.some.injEq,
    Prod.mk.injEq] at hseen
  obtain ⟨hlink, hrunning, htally⟩ := hseen
  obtain ⟨-, -, -, hshutdown, -⟩ := Bridge.shutdown_protocol hstart [.work, .work] []
  obtain ⟨-, -, hlast⟩ := hshutdown rfl (by rw [hrunning]; decide)
  cases hresult : (Life.run { bridge } [.work, .work]).bridge.shutdown.1 with
  | error cause =>
      rw [hresult] at htally
      cases htally
  | ok summary =>
      rw [hresult] at htally hlast
      rw [← Life.run_append] at hlast
      have hreturned := List.mem_of_getLast? hlast
      obtain ⟨-, -, -, -, hover, hspared⟩ := Bridge.shutdown_protocol hstart
        [.work, .work, .call .shutdown, .work, .work, .work, .proceed, .proceed, .proceed]
        [.work, .call .drop]
      have hunbroken : endpoint.link.Unbroken := by
        rw [hlink]
        exact ⟨rfl, by decide⟩
      obtain ⟨-, hwhole⟩ := hspared hunbroken (by decide)
      exact ⟨endpoint, bridge, summary, hcreate, hstart, hreturned, Option.some.inj htally,
        hwhole summary hreturned, (hover _ hreturned).1⟩

end TopicBridge
