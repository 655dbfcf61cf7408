import TopicBridge.Bridge

/-! The life of a bridge as a run of its worker and its owner, in any order of their steps, with
sends on outbound topics and changes of the link between them. A shutdown is four steps of the
owner: raising the flag, waiting for the worker, closing the link and marking the bridge. Done
without a break they are `Bridge.shutdown`. -/
namespace TopicBridge

inductive Happening where
  | looked (stop : Bool)
  | read (result : Except FrameError (Option Frame))
  | dispatched (frame : Frame)
  | rested
  | gaveUp (stop : Bool)
  | raised
  | closed
  | returned (result : Except BridgeError Summary)

namespace Happening

def delivered : Happening → List Frame
  | .read (.ok (some frame)) => [frame]
  | _ => []

def handled : Happening → List Frame
  | .dispatched frame => [frame]
  | _ => []

def fault? : Happening → Option FrameError
  | .read (.error cause) => some cause
  | _ => none

def isRead : Happening → Bool
  | .read _ => true
  | _ => false

/-- Done by the worker. -/
def isDeed : Happening → Bool
  | .raised => false
  | .closed => false
  | .returned _ => false
  | _ => true

end Happening

/-- An owner shuts a bridge down as often as he likes, and drops it once. -/
inductive Ending where
  | shutdown
  | drop

inductive Owner where
  | free
  | joining (ending : Ending)
  | closing (ending : Ending) (summary : Summary)
  | marking (ending : Ending) (result : Except BridgeError Summary)
  | gone

def Ending.owner : Ending → Owner
  | .shutdown => .free
  | .drop => .gone

inductive Outside where
  | arrive (arrival : Arrival)
  | close
  | failSend (fault : Option LinkError)
  | failClose (fault : Option LinkError)

def Outside.change : Outside → Link → Link
  | .arrive arrival, link => link.arrive arrival
  | .close, link => link.close.2
  | .failSend fault, link => { link with sendFault := fault }
  | .failClose fault, link => { link with closeFault := fault }

namespace Bridge

variable {η : Type}

def touch (bridge : Bridge η) (outside : Outside) : Bridge η :=
  { bridge with
    endpoint := { bridge.endpoint with link := outside.change bridge.endpoint.link } }

/-- What the next step of the worker does. -/
def deeds (bridge : Bridge η) : List Happening :=
  match bridge.worker with
  | .checking => [.looked bridge.cancelled]
  | .reading => [.read bridge.endpoint.read.1]
  | .holding frame => [.dispatched frame]
  | .pausing => [.rested]
  | .failing => [.gaveUp bridge.cancelled]
  | .ended _ => []
  | .crashed => []

variable {bridge : Bridge η}

theorem deeds_of_settled (h : bridge.worker.isAlive = false) : bridge.deeds = [] := by
  rw [deeds]
  cases hworker : bridge.worker with
  | ended | crashed => rfl
  | checking | reading | holding | pausing | failing =>
      rw [hworker] at h
      cases h

/-- A worker that is not at its end does one thing with each step. -/
theorem exists_of_isAlive (h : bridge.worker.isAlive = true) :
    ∃ deed, deed.isDeed = true ∧ bridge.deeds = [deed] := by
  rw [deeds]
  cases hworker : bridge.worker with
  | checking | reading | holding | pausing | failing => exact ⟨_, rfl, rfl⟩
  | ended | crashed =>
      rw [hworker] at h
      cases h

theorem filter_deeds (bridge : Bridge η) : bridge.deeds.filter Happening.isDeed = bridge.deeds := by
  cases halive : bridge.worker.isAlive with
  | false => rw [deeds_of_settled halive, List.filter_nil]
  | true =>
      obtain ⟨deed, hdeed, hdeeds⟩ := exists_of_isAlive halive
      rw [hdeeds, List.filter_cons_of_pos hdeed, List.filter_nil]

end Bridge

structure Life (η : Type) where
  bridge : Bridge η
  owner : Owner := .free
  log : List Happening := []

namespace Life

inductive Turn where
  | work
  | call (ending : Ending)
  | proceed
  | send (topic : OutboundTopic) (payload : Bytes)
  | outside (outside : Outside)

variable {η : Type} [Host η]

/-- One step of whoever has the turn. Waiting for a worker that goes on leaves all as it is. -/
def turn (life : Life η) : Turn → Life η
  | .work => { life with bridge := life.bridge.step, log := life.log ++ life.bridge.deeds }
  | .call ending =>
      match life.owner with
      | .free =>
          if life.bridge.stage = .stopped then
            { life with owner := ending.owner, log := life.log ++ [.returned (.ok {})] }
          else
            { bridge := life.bridge.cancel
              owner := .joining ending
              log := life.log ++ [.raised] }
      | _ => life
  | .proceed =>
      match life.owner with
      | .joining ending =>
          if life.bridge.worker.isAlive then life
          else { life with owner := .closing ending life.bridge.summary }
      | .closing ending summary =>
          let (closed, endpoint) := life.bridge.endpoint.close
          { bridge := { life.bridge with endpoint }
            owner := .marking ending ((closed.mapError .frame).map fun _ => summary)
            log := life.log ++ [.closed] }
      | .marking ending result =>
          { bridge := { life.bridge with stage := .stopped }
            owner := ending.owner
            log := life.log ++ [.returned result] }
      | _ => life
  | .send topic payload => { life with bridge := (life.bridge.send topic payload).2 }
  | .outside outside => { life with bridge := life.bridge.touch outside }

def run (life : Life η) (turns : List Turn) : Life η := turns.foldl turn life

theorem run_append (life : Life η) (turns more : List Turn) :
    life.run (turns ++ more) = (life.run turns).run more := List.foldl_append

end Life

namespace Life

variable {η : Type} [Host η] {life : Life η}

/-- All that a turn can come to. -/
inductive Takes (life : Life η) : Turn → Life η → Prop
  | worked :
      Takes life .work
        { life with bridge := life.bridge.step, log := life.log ++ life.bridge.deeds }
  | again (ending : Ending) : life.owner = .free → life.bridge.stage = .stopped →
      Takes life (.call ending)
        { life with owner := ending.owner, log := life.log ++ [.returned (.ok {})] }
  | raised (ending : Ending) : life.owner = .free → life.bridge.stage ≠ .stopped →
      Takes life (.call ending)
        { bridge := life.bridge.cancel, owner := .joining ending, log := life.log ++ [.raised] }
  | joined {ending : Ending} : life.owner = .joining ending → life.bridge.worker.isAlive = false →
      Takes life .proceed { life with owner := .closing ending life.bridge.summary }
  | closed {ending : Ending} {summary : Summary} : life.owner = .closing ending summary →
      Takes life .proceed
        { bridge := { life.bridge with endpoint := life.bridge.endpoint.close.2 }
          owner := .marking ending
            ((life.bridge.endpoint.close.1.mapError .frame).map fun _ => summary)
          log := life.log ++ [.closed] }
  | marked {ending : Ending} {result : Except BridgeError Summary} :
      life.owner = .marking ending result →
      Takes life .proceed
        { bridge := { life.bridge with stage := .stopped }
          owner := ending.owner
          log := life.log ++ [.returned result] }
  | sent (topic : OutboundTopic) (payload : Bytes) :
      Takes life (.send topic payload) { life with bridge := (life.bridge.send topic payload).2 }
  | changed (outside : Outside) :
      Takes life (.outside outside) { life with bridge := life.bridge.touch outside }
  | idle (turn : Turn) : Takes life turn life

theorem takes_turn (life : Life η) (turn : Turn) : life.Takes turn (life.turn turn) := by
  cases turn with
  | work => exact .worked
  | call ending =>
      rw [Life.turn]
      cases howner : life.owner with
      | free =>
          by_cases hstopped : life.bridge.stage = .stopped
          · simpa [hstopped] using Takes.again ending howner hstopped
          · simpa [hstopped] using Takes.raised ending howner hstopped
      | joining | closing | marking | gone => exact .idle _
  | proceed =>
      rw [Life.turn]
      cases howner : life.owner with
      | joining ending =>
          cases halive : life.bridge.worker.isAlive with
          | true => simpa [halive] using Takes.idle .proceed
          | false => simpa [halive] using Takes.joined howner halive
      | closing ending summary => exact .closed howner
      | marking ending result => exact .marked howner
      | free | gone => exact .idle _
  | send topic payload => exact .sent topic payload
  | outside outside => exact .changed outside

/-- What every turn keeps holds after every run. -/
theorem run_induction {motive : Life η → Prop} {life : Life η} (start : motive life)
    (step : ∀ {life next : Life η} {turn : Turn}, life.Takes turn next → motive life → motive next)
    (turns : List Turn) : motive (life.run turns) := by
  induction turns generalizing life with
  | nil => exact start
  | cons turn turns ih => exact ih (step (life.takes_turn turn) start)

end Life

namespace Bridge

variable {η : Type} [Host η] {bridge : Bridge η}

/-- All that a step of the worker can come to, and what is noted of it. -/
inductive Works (bridge : Bridge η) : List Happening → Bridge η → Prop
  | stopping : bridge.worker = .checking → bridge.cancelled = true →
      Works bridge [.looked true] (bridge.finish false)
  | going : bridge.worker = .checking → bridge.cancelled = false →
      Works bridge [.looked false] { bridge with worker := .reading }
  | read : bridge.worker = .reading →
      Works bridge [.read bridge.endpoint.read.1]
        { bridge with
          endpoint := bridge.endpoint.read.2
          worker := afterRead bridge.endpoint.read.1 }
  | dispatched {frame : Frame} : bridge.worker = .holding frame →
      Works bridge [.dispatched frame] (bridge.dispatch frame)
  | rested : bridge.worker = .pausing → Works bridge [.rested] { bridge with worker := .checking }
  | gaveUp : bridge.worker = .failing →
      Works bridge [.gaveUp bridge.cancelled] (bridge.finish !bridge.cancelled)
  | idle : bridge.worker.isAlive = false → Works bridge [] bridge

theorem works_step (bridge : Bridge η) : bridge.Works bridge.deeds bridge.step := by
  cases hworker : bridge.worker with
  | checking =>
      cases hcancelled : bridge.cancelled with
      | true => simpa [deeds, step, hworker, hcancelled] using Works.stopping hworker hcancelled
      | false => simpa [deeds, step, hworker, hcancelled] using Works.going hworker hcancelled
  | reading => simpa [deeds, step, hworker] using Works.read hworker
  | holding frame => simpa [deeds, step, hworker] using Works.dispatched hworker
  | pausing => simpa [deeds, step, hworker] using Works.rested hworker
  | failing => simpa [deeds, step, hworker] using Works.gaveUp hworker
  | ended summary =>
      have hover : bridge.worker.isAlive = false := by rw [hworker]; rfl
      simpa [deeds, step, hworker] using Works.idle hover
  | crashed =>
      have hover : bridge.worker.isAlive = false := by rw [hworker]; rfl
      simpa [deeds, step, hworker] using Works.idle hover

/-- Where the error of a read leads the worker: a closed link and a bad configuration end it, other
trouble of the link makes it rest, and a full queue or a lost frame is passed over. -/
inductive Leads : FrameError → Worker → Prop
  | closed : Leads (.link .closed) .failing
  | config (reason : String) : Leads (.config reason) .failing
  | trouble {fault : LinkError} : fault ≠ .closed →
      (∀ requested free, fault ≠ .overflow requested free) → Leads (.link fault) .pausing
  | overflow (requested free : Nat) : Leads (.link (.overflow requested free)) .checking
  | lost {cause : FrameError} : (∀ fault, cause ≠ .link fault) →
      (∀ reason, cause ≠ .config reason) → Leads cause .checking

theorem leads_afterRead (cause : FrameError) : Leads cause (afterRead (.error cause)) := by
  cases cause with
  | link fault =>
      cases fault with
      | closed => exact .closed
      | overflow requested free => exact .overflow requested free
      | openFailed | unsupportedBaudRate | bind | resolve | io | writeTimeout =>
          exact .trouble nofun nofun
  | config reason => exact .config reason
  | payloadTooLarge | crcMismatch | stuffing | truncated | lengthMismatch =>
      exact .lost nofun nofun

theorem Leads.worker {cause : FrameError} {worker : Worker} (h : Leads cause worker) :
    worker = .failing ∨ worker = .pausing ∨ worker = .checking := by
  cases h with
  | closed | config => exact .inl rfl
  | trouble => exact .inr (.inl rfl)
  | overflow | lost => exact .inr (.inr rfl)

theorem Leads.afterRead_eq {cause : FrameError} {worker : Worker} (h : Leads cause worker) :
    afterRead (.error cause) = worker := by
  cases h with
  | closed | config | overflow => rfl
  | @trouble fault hopen hroom =>
      cases fault with
      | closed => exact absurd rfl hopen
      | overflow requested free => exact absurd rfl (hroom requested free)
      | openFailed | unsupportedBaudRate | bind | resolve | io | writeTimeout => rfl
  | lost hlink hconfig =>
      cases cause with
      | link fault => exact absurd rfl (hlink fault)
      | config reason => exact absurd rfl (hconfig reason)
      | payloadTooLarge | crcMismatch | stuffing | truncated | lengthMismatch => rfl

theorem leads_iff {cause : FrameError} {worker : Worker} :
    Leads cause worker ↔ afterRead (.error cause) = worker := by
  constructor
  · exact Leads.afterRead_eq
  · rintro rfl
    exact leads_afterRead cause

/-- A read itself ends no worker. -/
theorem isAlive_afterRead (result : Except FrameError (Option Frame)) :
    (afterRead result).isAlive = true := by
  rcases result with cause | _ | frame
  · rcases (leads_afterRead cause).worker with h | h | h <;> rw [h] <;> rfl
  · rfl
  · rfl

/-- All that handing a frame on can come to. -/
inductive Dispatches (bridge : Bridge η) (frame : Frame) : Bridge η → Prop
  | unroutable : bridge.route? frame.topic = none →
      Dispatches bridge frame
        { bridge with
          worker := .checking
          tally := { bridge.tally with unroutable := bridge.tally.unroutable + 1 } }
  | published {mapping : TopicMapping} {host : η} : bridge.route? frame.topic = some mapping →
      Host.publish bridge.host mapping frame.payload = (.done, host) →
      Dispatches bridge frame
        { bridge with
          host
          worker := .checking
          tally := { bridge.tally with published := bridge.tally.published + 1 } }
  | refused {mapping : TopicMapping} {cause : BridgeError} {host : η} :
      bridge.route? frame.topic = some mapping →
      Host.publish bridge.host mapping frame.payload = (.refused cause, host) →
      Dispatches bridge frame
        { bridge with
          host
          worker := .checking
          tally := { bridge.tally with publishFailures := bridge.tally.publishFailures + 1 } }
  | crashed {mapping : TopicMapping} {host : η} : bridge.route? frame.topic = some mapping →
      Host.publish bridge.host mapping frame.payload = (.crashed, host) →
      Dispatches bridge frame { bridge with host, worker := .crashed }

theorem Dispatches.worker {frame : Frame} {next : Bridge η} (h : bridge.Dispatches frame next) :
    next.worker = .checking ∨ next.worker = .crashed := by
  cases h with
  | unroutable | published | refused => exact .inl rfl
  | crashed => exact .inr rfl

theorem dispatches_dispatch (bridge : Bridge η) (frame : Frame) :
    bridge.Dispatches frame (bridge.dispatch frame) := by
  rw [dispatch]
  cases hroute : bridge.route? frame.topic with
  | none => exact .unroutable hroute
  | some mapping =>
      rcases hpublish : Host.publish bridge.host mapping frame.payload with ⟨delivery, host⟩
      cases delivery with
      | done => simpa [hpublish] using Dispatches.published hroute hpublish
      | refused cause => simpa [hpublish] using Dispatches.refused hroute hpublish
      | crashed => simpa [hpublish] using Dispatches.crashed hroute hpublish

/-- The worker changes neither what the bridge is nor what the owner has done with it. -/
structure Keeps (bridge next : Bridge η) : Prop where
  table : next.table = bridge.table
  routes : next.routes = bridge.routes
  stage : next.stage = bridge.stage
  cancelled : next.cancelled = bridge.cancelled

theorem Dispatches.keeps {frame : Frame} {next : Bridge η} (h : bridge.Dispatches frame next) :
    bridge.Keeps next := by
  cases h with
  | unroutable | published | refused | crashed => exact ⟨rfl, rfl, rfl, rfl⟩

theorem Works.keeps {deeds : List Happening} {next : Bridge η} (h : bridge.Works deeds next) :
    bridge.Keeps next := by
  cases h with
  | dispatched => exact (bridge.dispatches_dispatch _).keeps
  | stopping | going | read | rested | gaveUp | idle => exact ⟨rfl, rfl, rfl, rfl⟩

@[simp] theorem stage_step : bridge.step.stage = bridge.stage := bridge.works_step.keeps.stage

@[simp] theorem cancelled_step : bridge.step.cancelled = bridge.cancelled :=
  bridge.works_step.keeps.cancelled

theorem step_of_ended (h : bridge.worker.isAlive = false) : bridge.step = bridge := by
  rw [step]
  split <;> simp_all [Worker.isAlive]

/-- A bound on the steps that a worker makes who is told to stop. -/
def stepsLeft : Worker → Nat
  | .checking => 1
  | .reading => 3
  | .holding _ => 2
  | .pausing => 2
  | .failing => 1
  | .ended _ => 0
  | .crashed => 0

theorem stepsLeft_le_three (worker : Worker) : stepsLeft worker ≤ 3 := by
  cases worker <;> simp [stepsLeft]

theorem isAlive_of_stepsLeft {worker : Worker} (h : stepsLeft worker = 0) :
    worker.isAlive = false := by
  cases worker with
  | ended | crashed => rfl
  | checking | reading | holding | pausing | failing => cases h

theorem stepsLeft_of_isAlive {worker : Worker} (h : worker.isAlive = false) :
    stepsLeft worker = 0 := by
  cases worker with
  | ended | crashed => rfl
  | checking | reading | holding | pausing | failing => cases h

theorem stepsLeft_afterRead (result : Except FrameError (Option Frame)) :
    stepsLeft (afterRead result) ≤ 2 := by
  rcases result with cause | _ | frame
  · rcases (leads_afterRead cause).worker with h | h | h <;> rw [h] <;> decide
  · exact Nat.le_succ 1
  · exact Nat.le_refl 2

theorem Dispatches.stepsLeft_le {frame : Frame} {next : Bridge η}
    (h : bridge.Dispatches frame next) : stepsLeft next.worker ≤ 1 := by
  cases h with
  | unroutable | published | refused => exact Nat.le_refl 1
  | crashed => exact Nat.zero_le 1

/-- Once the flag is raised every step brings the worker closer to its end. -/
theorem Works.stepsLeft_le {deeds : List Happening} {next : Bridge η}
    (h : bridge.Works deeds next) (hcancelled : bridge.cancelled = true) :
    stepsLeft next.worker ≤ stepsLeft bridge.worker - 1 := by
  cases h with
  | stopping => exact Nat.zero_le _
  | going _ hgoing => simp [hcancelled] at hgoing
  | read hworker =>
      rw [hworker]
      exact stepsLeft_afterRead _
  | dispatched hworker =>
      rw [hworker]
      exact (bridge.dispatches_dispatch _).stepsLeft_le
  | rested hworker =>
      rw [hworker]
      exact Nat.le_refl 1
  | gaveUp => exact Nat.zero_le _
  | idle hover =>
      have hnone := stepsLeft_of_isAlive hover
      omega

theorem join_ends (h : bridge.cancelled = true) : bridge.join.worker.isAlive = false := by
  have hfirst := bridge.works_step.stepsLeft_le h
  have hsecond := bridge.step.works_step.stepsLeft_le (by rw [cancelled_step, h])
  have hthird := bridge.step.step.works_step.stepsLeft_le
    (by rw [cancelled_step, cancelled_step, h])
  have hbound := stepsLeft_le_three bridge.worker
  apply isAlive_of_stepsLeft
  change stepsLeft bridge.step.step.step.worker = 0
  omega

end Bridge

/-- A shutdown is what the owner's four steps come to when nothing but the worker's last steps
comes between them. -/
theorem Life.shutdown_eq_turns {η : Type} [Host η] {life : Life η} (howner : life.owner = .free)
    (h : life.bridge.stage ≠ .stopped) :
    let last := life.run [.call .shutdown, .work, .work, .work, .proceed, .proceed, .proceed]
    last.bridge = life.bridge.shutdown.2 ∧ last.owner = .free ∧
      last.log.getLast? = some (.returned life.bridge.shutdown.1) := by
  have hended : life.bridge.cancel.join.worker.isAlive = false := Bridge.join_ends rfl
  have hjoin : life.bridge.cancel.step.step.step = life.bridge.cancel.join := rfl
  rw [Bridge.shutdown, if_neg h]
  simp only [Life.run, List.foldl_cons, List.foldl_nil, Life.turn, howner, if_neg h, hjoin, hended,
    Bool.false_eq_true, if_false, Bridge.stop]
  exact ⟨trivial, rfl, List.getLast?_concat ..⟩

end TopicBridge
