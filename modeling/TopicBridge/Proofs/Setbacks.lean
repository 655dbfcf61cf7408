import TopicBridge.Proofs.Lifetime

/-! What the error of a read does to a worker. One that may pass costs it a rest at most, and then
it looks at the flag and reads on. One that is for good is its last: with the next step it gives up,
and the link has failed unless the flag was raised by then. -/
namespace TopicBridge

theorem isTransient_eq_false_iff {cause : FrameError} :
    cause.isTransient = false ↔ cause = .link .closed ∨ ∃ reason, cause = .config reason := by
  cases cause with
  | link fault => cases fault <;> simp [FrameError.isTransient]
  | _ => simp [FrameError.isTransient]

namespace Bridge
variable {η : Type} {bridge : Bridge η}

theorem Leads.isTransient {cause : FrameError} (h : Leads cause .failing) :
    cause.isTransient = false := by
  cases h with
  | closed | config => rfl

theorem exists_of_afterRead {result : Except FrameError (Option Frame)}
    (h : afterRead result = .failing) :
    ∃ cause, result = .error cause ∧ cause.isTransient = false := by
  rcases result with cause | _ | frame
  · exact ⟨cause, rfl, (leads_iff.mpr h).isTransient⟩
  · cases h
  · cases h

/-- What a worker has done since a read failed, and where that has brought it. -/
inductive Setback (cause : FrameError) : List Happening → Worker → Prop
  | struck {worker : Worker} : Leads cause worker → Setback cause [] worker
  | rested : Leads cause .pausing → Setback cause [.rested] .checking
  | resumed {stop : Bool} {later : List Happening} {worker : Worker} : Leads cause .checking →
      Setback cause (.looked stop :: later) worker
  | recovered {stop : Bool} {later : List Happening} {worker : Worker} : Leads cause .pausing →
      Setback cause (.rested :: .looked stop :: later) worker
  | ended {stop : Bool} {summary : Summary} : Leads cause .failing →
      summary.linkFailed = !stop → Setback cause [.gaveUp stop] (.ended summary)

theorem reading_of_mem_deeds {result : Except FrameError (Option Frame)}
    (h : .read result ∈ bridge.deeds) :
    bridge.worker = .reading ∧ bridge.endpoint.read.1 = result := by
  rw [deeds] at h
  cases hworker : bridge.worker with
  | reading =>
      rw [hworker] at h
      cases List.mem_singleton.mp h
      exact ⟨rfl, rfl⟩
  | checking | holding | pausing | failing =>
      rw [hworker] at h
      cases List.mem_singleton.mp h
  | ended | crashed =>
      rw [hworker] at h
      cases h

variable [Host η]

/-- A worker at an error that is for good is at its end with the next step. -/
theorem ended_of_failing (h : bridge.worker = .failing) :
    ∃ summary, bridge.step.worker = .ended summary ∧ summary.linkFailed = !bridge.cancelled := by
  rw [step, h]
  exact ⟨_, rfl, rfl⟩

theorem Setback.step {cause : FrameError} {later : List Happening}
    (h : Setback cause later bridge.worker) :
    Setback cause (later ++ bridge.deeds) bridge.step.worker := by
  generalize hworker : bridge.worker = worker at h
  cases h with
  | struck hleads =>
      rcases hleads.worker with rfl | rfl | rfl
      · have hdeeds : bridge.deeds = [.gaveUp bridge.cancelled] := by rw [deeds, hworker]
        have hstep : bridge.step = bridge.finish !bridge.cancelled := by rw [Bridge.step, hworker]
        rw [hdeeds, hstep]
        exact .ended hleads rfl
      · have hdeeds : bridge.deeds = [.rested] := by rw [deeds, hworker]
        have hstep : bridge.step = { bridge with worker := .checking } := by
          rw [Bridge.step, hworker]
        rw [hdeeds, hstep]
        exact .rested hleads
      · have hdeeds : bridge.deeds = [.looked bridge.cancelled] := by rw [deeds, hworker]
        rw [hdeeds]
        exact .resumed hleads
  | rested hleads =>
      have hdeeds : bridge.deeds = [.looked bridge.cancelled] := by rw [deeds, hworker]
      rw [hdeeds]
      exact .recovered hleads
  | resumed hleads => exact .resumed hleads
  | recovered hleads => exact .recovered hleads
  | ended hleads hfailed =>
      have hover : bridge.worker.isAlive = false := by rw [hworker]; rfl
      rw [deeds_of_settled hover, step_of_ended hover, hworker, List.append_nil]
      exact .ended hleads hfailed

theorem Setback.of_deeds {cause : FrameError} {front back : List Happening}
    (h : bridge.deeds = front ++ .read (.error cause) :: back) :
    Setback cause back bridge.step.worker := by
  have hmem : .read (.error cause) ∈ bridge.deeds := by
    rw [h]
    exact List.mem_append_right _ List.mem_cons_self
  obtain ⟨hworker, hresult⟩ := reading_of_mem_deeds hmem
  have hstep : bridge.step.worker = afterRead (.error cause) := by
    rw [← hresult, Bridge.step, hworker]
  rw [deeds, hworker] at h
  obtain ⟨-, hback⟩ | ⟨-, hnone⟩ := List.append_eq_singleton_iff.mp h.symm
  · obtain ⟨-, rfl⟩ := List.cons.inj hback
    rw [hstep]
    exact .struck (leads_afterRead cause)
  · cases hnone

end Bridge

namespace Life
variable {η : Type} {life next : Life η}

/-- After every read that failed the worker is where that can have brought it. -/
def Weathered (life : Life η) : Prop :=
  ∀ front cause back, life.log.filter Happening.isDeed = front ++ .read (.error cause) :: back →
    Bridge.Setback cause back life.bridge.worker

theorem Weathered.congr (h : life.Weathered)
    (hdeeds : next.log.filter Happening.isDeed = life.log.filter Happening.isDeed)
    (hworker : next.bridge.worker = life.bridge.worker) : next.Weathered := by
  intro front cause back hsplit
  rw [hdeeds] at hsplit
  rw [hworker]
  exact h front cause back hsplit

theorem weathered_start (host : η) (table : Table) (endpoint : Endpoint) :
    Weathered { bridge := { endpoint, host, table, routes := table.inbound } } := by
  intro front cause back hsplit
  exact absurd hsplit.symm (by simp)

variable [Host η] {turn : Turn}

theorem Weathered.worked (h : life.Weathered) : (life.turn .work).Weathered := by
  intro front cause back hsplit
  change (life.log ++ life.bridge.deeds).filter Happening.isDeed = _ at hsplit
  change Bridge.Setback cause back life.bridge.step.worker
  rw [List.filter_append, Bridge.filter_deeds] at hsplit
  obtain ⟨middle, -, hdeeds⟩ | ⟨middle, hlog, hback⟩ := List.append_eq_append_iff.mp hsplit
  · exact .of_deeds hdeeds
  · cases middle with
    | nil =>
        have hdeeds : life.bridge.deeds = [] ++ .read (.error cause) :: back := hback.symm
        exact .of_deeds hdeeds
    | cons first later =>
        obtain ⟨rfl, rfl⟩ := List.cons.inj hback
        exact (h front cause later hlog).step

theorem Weathered.takes (h : life.Weathered) (htakes : life.Takes turn next) :
    next.Weathered := by
  cases htakes with
  | worked => exact h.worked
  | again | raised | closed | marked =>
      refine h.congr ?_ rfl
      rw [List.filter_append]
      exact List.append_nil _
  | joined | sent | changed | idle => exact h

theorem Weathered.run (h : life.Weathered) (turns : List Turn) : (life.run turns).Weathered :=
  run_induction h (fun htakes hlife => hlife.takes htakes) turns

end Life

end TopicBridge
