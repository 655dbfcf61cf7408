import TopicBridge.Host.Recorder
import TopicBridge.Proofs.Setbacks
import TopicBridge.Proofs.Tables

/-! The books of a worker. Its routes say of every id what the table says, so each frame that was
read goes to the publisher of its inbound topic, once and in order, or is counted as one without a
way, and the worker ends only when it is told to or when the link is gone, and then it does. -/
namespace TopicBridge

/-- The call that a frame is due, if its id is one of an inbound topic. -/
def Table.delivery (table : Table) (frame : Frame) : Option (TopicMapping × Bytes) :=
  ((table.find? frame.topic).filter fun mapping => mapping.direction = .serialToHost).map
    fun mapping => (mapping, frame.payload)

namespace Table
variable {table : Table} {mapping other : TopicMapping} {id : UInt8}

theorem Proper.eq_of_find? (h : table.Proper) (hfind : table.find? id = some mapping)
    (hother : other ∈ table.mappings) (hid : other.topicId = id) : other = mapping := by
  have hsame := h.find?_eq_some_iff.mpr ⟨hother, hid⟩
  rw [hfind] at hsame
  exact (Option.some.inj hsame).symm

/-- The inbound list and the table agree on every id. -/
theorem Proper.find?_inbound (h : table.Proper) (id : UInt8) :
    (table.inbound.find? fun mapping => mapping.topicId = id) =
      (table.find? id).filter fun mapping => mapping.direction = .serialToHost := by
  cases hfind : table.find? id with
  | none =>
      apply List.find?_eq_none.mpr
      intro mapping hmapping hid
      have hfound := h.find?_eq_some_iff.mpr
        ⟨(List.mem_filter.mp hmapping).1, of_decide_eq_true hid⟩
      rw [hfind] at hfound
      cases hfound
  | some mapping =>
      obtain ⟨hmapping, hid⟩ := h.find?_eq_some_iff.mp hfind
      by_cases hinbound : mapping.direction = .serialToHost
      · have hmem : mapping ∈ table.inbound :=
          List.mem_filter.mpr ⟨hmapping, decide_eq_true hinbound⟩
        have hsome : (table.inbound.find? fun mapping => mapping.topicId = id).isSome :=
          List.find?_isSome.mpr ⟨mapping, hmem, decide_eq_true hid⟩
        obtain ⟨other, hother⟩ := Option.isSome_iff_exists.mp hsome
        have hid : other.topicId = id := by simpa using List.find?_some hother
        have hsame : other = mapping := h.eq_of_find? hfind
          (List.mem_filter.mp (List.mem_of_find?_eq_some hother)).1 hid
        rw [hother, hsame, Option.filter_some, if_pos (decide_eq_true hinbound)]
      · rw [Option.filter_some, if_neg (by simpa using hinbound)]
        apply List.find?_eq_none.mpr
        intro other hother hsame
        obtain ⟨hmem, hdirection⟩ := List.mem_filter.mp hother
        obtain rfl := h.eq_of_find? hfind hmem (of_decide_eq_true hsame)
        exact hinbound (of_decide_eq_true hdirection)

theorem Proper.delivery_eq_some_iff (h : table.Proper) {frame : Frame}
    {call : TopicMapping × Bytes} :
    table.delivery frame = some call ↔
      call.1 ∈ table.inbound ∧ call.1.topicId = frame.topic ∧ call.2 = frame.payload := by
  obtain ⟨mapping, payload⟩ := call
  simp only [delivery, Option.map_eq_some_iff, Option.filter_eq_some_iff, h.find?_eq_some_iff,
    inbound, List.mem_filter, Prod.mk.injEq]
  constructor
  · rintro ⟨_, ⟨⟨hmapping, hid⟩, hinbound⟩, rfl, rfl⟩
    exact ⟨⟨hmapping, hinbound⟩, hid, rfl⟩
  · rintro ⟨⟨hmapping, hinbound⟩, hid, rfl⟩
    exact ⟨_, ⟨⟨hmapping, hid⟩, hinbound⟩, rfl, rfl⟩

/-- Reserved ids lead nowhere. -/
theorem Proper.delivery_of_reserved (h : table.Proper) {frame : Frame}
    (hreserved : Topic.isReserved frame.topic = true) : table.delivery frame = none := by
  rw [Option.eq_none_iff_forall_ne_some]
  intro call hcall
  obtain ⟨hmapping, hid, -⟩ := h.delivery_eq_some_iff.mp hcall
  have hfree := (h.placed (List.mem_filter.mp hmapping).1).free
  rw [hid, hreserved] at hfree
  cases hfree

end Table

namespace Bridge
variable {η : Type} {bridge : Bridge η} {table : Table}

theorem delivery_eq (hproper : table.Proper) (hroutes : bridge.routes = table.inbound)
    (frame : Frame) :
    table.delivery frame =
      (bridge.route? frame.topic).map fun mapping => (mapping, frame.payload) := by
  rw [Table.delivery, ← hproper.find?_inbound, route?, hroutes]

variable [Host η]

theorem registerOne_eq_ok {headerLength : Nat} {host next : η} {mapping : TopicMapping}
    {routes : List TopicMapping} (h : registerOne headerLength host mapping = .ok (routes, next)) :
    routes = [mapping].filter fun mapping => mapping.direction = .serialToHost := by
  unfold registerOne at h
  cases hdirection : mapping.direction with
  | serialToHost =>
      rw [hdirection] at h
      cases hopen : Host.openInbound host mapping with
      | error cause => simp [hopen, Except.map] at h
      | ok opened =>
          simp only [hopen, Except.map, Except.ok.injEq, Prod.mk.injEq] at h
          simp [← h.1, hdirection]
  | hostToSerial =>
      rw [hdirection] at h
      cases hopen : Host.openOutbound host mapping
          ⟨mapping.topicId, mapping.name, headerLength⟩ with
      | error cause => simp [hopen, Except.map] at h
      | ok opened =>
          simp only [hopen, Except.map, Except.ok.injEq, Prod.mk.injEq] at h
          simp [← h.1, hdirection]
  | unknown => simp [hdirection] at h

theorem register_eq_ok {headerLength : Nat} {mappings : List TopicMapping} {host next : η}
    {routes : List TopicMapping} (h : register headerLength mappings host = (.ok routes, next)) :
    routes = mappings.filter fun mapping => mapping.direction = .serialToHost := by
  induction mappings generalizing host next routes with
  | nil =>
      cases h
      rfl
  | cons mapping rest ih =>
      rw [register] at h
      cases hfirst : registerOne headerLength host mapping with
      | error cause => simp [hfirst] at h
      | ok opened =>
          obtain ⟨first, middle⟩ := opened
          rcases hrest : register headerLength rest middle with ⟨more, last⟩
          simp only [hfirst, hrest] at h
          cases more with
          | error cause => cases h
          | ok more =>
              obtain ⟨hroutes, -⟩ := Prod.mk.inj h
              have happend : first ++ more = routes := Except.ok.inj hroutes
              rw [← happend, registerOne_eq_ok hfirst, ih hrest, ← List.filter_append,
                List.singleton_append]

/-- A start that succeeds has a route for just the inbound topics. -/
theorem exists_of_start {endpoint : Endpoint} {host : η}
    (h : start endpoint table host = .ok bridge) :
    ∃ next, bridge = { endpoint, host := next, table, routes := table.inbound } := by
  rw [start] at h
  rcases hregister : register endpoint.headerLength table.mappings host with ⟨routes, next⟩
  simp only [hregister] at h
  cases routes with
  | error cause => cases h
  | ok routes =>
      rw [register_eq_ok hregister] at h
      exact ⟨next, (Except.ok.inj h).symm⟩

end Bridge

def Delivery.isRefused : Delivery → Bool
  | .refused _ => true
  | _ => false

section
variable {η : Type} [Host η]

def publishAll : List (TopicMapping × Bytes) → η → List Delivery × η
  | [], host => ([], host)
  | (mapping, payload) :: rest, host =>
      let (delivery, host) := Host.publish host mapping payload
      let (more, host) := publishAll rest host
      (delivery :: more, host)

theorem publishAll_concat (calls : List (TopicMapping × Bytes)) (mapping : TopicMapping)
    (payload : Bytes) (host : η) :
    publishAll (calls ++ [(mapping, payload)]) host =
      ((publishAll calls host).1 ++
          [(Host.publish (publishAll calls host).2 mapping payload).1],
        (Host.publish (publishAll calls host).2 mapping payload).2) := by
  induction calls generalizing host with
  | nil => rfl
  | cons call rest ih => simp only [List.cons_append, publishAll, ih]

/-- One more answer in the counters. A crash is in none of them. -/
def Tally.add (tally : Tally) : Delivery → Tally
  | .done => { tally with published := tally.published + 1 }
  | .refused _ => { tally with publishFailures := tally.publishFailures + 1 }
  | .crashed => tally

def Tally.total (tally : Tally) : Nat := tally.published + tally.publishFailures + tally.unroutable

theorem Tally.total_add (tally : Tally) {answer : Delivery} (h : answer ≠ .crashed) :
    (tally.add answer).total = tally.total + 1 := by
  cases answer with
  | done | refused =>
      simp only [Tally.add, Tally.total]
      omega
  | crashed => exact absurd rfl h

/-- What comes of frames that are all handed on, by a table and from a host. -/
def Table.tally (table : Table) (host : η) (frames : List Frame) : Tally :=
  let answers := (publishAll (frames.filterMap table.delivery) host).1
  { published := answers.count .done
    publishFailures := answers.countP Delivery.isRefused
    unroutable := frames.countP fun frame => (table.delivery frame).isNone }

theorem tally_of_none {table : Table} {frame : Frame} (h : table.delivery frame = none) (host : η)
    (frames : List Frame) :
    table.tally host (frames ++ [frame]) =
      { table.tally host frames with
        unroutable := (table.tally host frames).unroutable + 1 } := by
  simp [Table.tally, List.filterMap_append, h]

theorem filterMap_of_some {table : Table} {frame : Frame} {call : TopicMapping × Bytes}
    (h : table.delivery frame = some call) (frames : List Frame) :
    (frames ++ [frame]).filterMap table.delivery = frames.filterMap table.delivery ++ [call] := by
  simp [List.filterMap_append, h]

theorem tally_of_some {table : Table} {frame : Frame} {mapping : TopicMapping}
    (h : table.delivery frame = some (mapping, frame.payload)) (host : η) (frames : List Frame) :
    table.tally host (frames ++ [frame]) =
      (table.tally host frames).add (Host.publish
        (publishAll (frames.filterMap table.delivery) host).2 mapping frame.payload).1 := by
  rw [Table.tally, filterMap_of_some h, publishAll_concat]
  generalize (Host.publish (publishAll (frames.filterMap table.delivery) host).2 mapping
    frame.payload).1 = answer
  cases answer <;> simp [Table.tally, Tally.add, Delivery.isRefused, h]

end

def Worker.inHand : Worker → List Frame
  | .holding frame => [frame]
  | _ => []

/-- Frames that were read and are in no counter: the one in hand, or the one that took the worker
down. -/
def Worker.outstanding : Worker → Nat
  | .holding _ => 1
  | .crashed => 1
  | _ => 0

/-- From the frames that a worker has read, those it has handled and what it has counted. -/
structure Books {η : Type} [Host η] (table : Table) (host : η) (read handled : List Frame)
    (bridge : Bridge η) : Prop where
  routed : bridge.routes = table.inbound
  inOrder : read = handled ++ bridge.worker.inHand
  asked : (publishAll (handled.filterMap table.delivery) host).2 = bridge.host
  counted : bridge.tally = table.tally host handled
  settled : bridge.tally.total + bridge.worker.outstanding = read.length
  blamed : bridge.worker = .crashed →
    .crashed ∈ (publishAll (handled.filterMap table.delivery) host).1

section
variable {η : Type} [Host η] {table : Table} {host : η} {read handled : List Frame}
  {bridge : Bridge η}

/-- One frame more is handled, by a call to the publisher of its topic. -/
theorem Books.answered (h : Books table host read handled bridge) {frame : Frame}
    (hworker : bridge.worker = .holding frame) {mapping : TopicMapping}
    (hdelivery : table.delivery frame = some (mapping, frame.payload)) {answer : Delivery}
    {later : η} (hpublish : Host.publish bridge.host mapping frame.payload = (answer, later))
    {worker : Worker} (hempty : worker.inHand = [])
    (hblamed : worker = .crashed → answer = .crashed)
    (htotal : (bridge.tally.add answer).total + worker.outstanding = bridge.tally.total + 1) :
    Books table host read (handled ++ [frame])
      { bridge with host := later, worker, tally := bridge.tally.add answer } := by
  obtain ⟨hrouted, hinOrder, hasked, hcounted, hsettled, -⟩ := h
  have hcalls : publishAll ((handled ++ [frame]).filterMap table.delivery) host =
      ((publishAll (handled.filterMap table.delivery) host).1 ++ [answer], later) := by
    rw [filterMap_of_some hdelivery, publishAll_concat, hasked, hpublish]
  rw [hworker] at hinOrder hsettled
  refine ⟨hrouted, ?_, ?_, ?_, htotal.trans hsettled, ?_⟩
  · rw [hempty, List.append_nil]
    exact hinOrder
  · rw [hcalls]
  · rw [tally_of_some hdelivery, hasked, hpublish, ← hcounted]
  · intro hcrashed
    rw [hcalls, ← hblamed hcrashed]
    exact List.mem_append_right _ List.mem_cons_self

/-- A frame in hand is asked of the host or counted as unroutable, as the table says. -/
theorem Books.dispatched (hproper : table.Proper) (h : Books table host read handled bridge)
    {frame : Frame} (hworker : bridge.worker = .holding frame) :
    Books table host read (handled ++ [frame]) (bridge.dispatch frame) := by
  have hdelivery := bridge.delivery_eq hproper h.routed frame
  have hdispatches := bridge.dispatches_dispatch frame
  generalize bridge.dispatch frame = next at hdispatches
  cases hdispatches with
  | unroutable hroute =>
      rw [hroute, Option.map_none] at hdelivery
      obtain ⟨hrouted, hinOrder, hasked, hcounted, hsettled, -⟩ := h
      rw [hworker] at hinOrder hsettled
      refine ⟨hrouted, ?_, ?_, ?_, hsettled, nofun⟩
      · rw [hinOrder]
        exact (List.append_nil _).symm
      · rw [List.filterMap_append, List.filterMap_cons, hdelivery]
        dsimp only
        rw [List.filterMap_nil, List.append_nil, hasked]
      · rw [tally_of_none hdelivery, ← hcounted]
  | published hroute hpublish =>
      rw [hroute, Option.map_some] at hdelivery
      exact h.answered hworker hdelivery hpublish rfl nofun (bridge.tally.total_add nofun)
  | refused hroute hpublish =>
      rw [hroute, Option.map_some] at hdelivery
      exact h.answered hworker hdelivery hpublish rfl nofun (bridge.tally.total_add nofun)
  | crashed hroute hpublish =>
      rw [hroute, Option.map_some] at hdelivery
      exact h.answered hworker hdelivery hpublish rfl (fun _ => rfl) rfl

/-- A worker with nothing in hand keeps the books when it reads, rests or ends. -/
theorem Books.found {found : List Frame} {next : Bridge η}
    (h : Books table host read handled bridge) (hempty : bridge.worker.inHand = [])
    (hsettled : bridge.worker.outstanding = 0) (hroutes : next.routes = bridge.routes)
    (hhost : next.host = bridge.host) (htally : next.tally = bridge.tally)
    (hfound : next.worker.inHand = found) (hlength : next.worker.outstanding = found.length)
    (hblamed : next.worker ≠ .crashed) : Books table host (read ++ found) handled next := by
  refine ⟨hroutes.trans h.routed, ?_, ?_, htally.trans h.counted, ?_, fun h => absurd h hblamed⟩
  · rw [h.inOrder, hempty, List.append_nil, hfound]
  · rw [hhost]
    exact h.asked
  · rw [htally, hlength, List.length_append, ← h.settled, hsettled]
    rfl

theorem afterRead_books (result : Except FrameError (Option Frame)) :
    (Bridge.afterRead result).inHand = Happening.delivered (.read result) ∧
      (Bridge.afterRead result).outstanding = (Happening.delivered (.read result)).length ∧
      Bridge.afterRead result ≠ .crashed := by
  rcases result with cause | _ | frame
  · rcases (Bridge.leads_afterRead cause).worker with h | h | h <;> rw [h] <;>
      exact ⟨rfl, rfl, nofun⟩
  · exact ⟨rfl, rfl, nofun⟩
  · exact ⟨rfl, rfl, nofun⟩

theorem Books.works (hproper : table.Proper) (h : Books table host read handled bridge)
    {deeds : List Happening} {next : Bridge η} (hworks : bridge.Works deeds next) :
    Books table host (read ++ deeds.flatMap Happening.delivered)
      (handled ++ deeds.flatMap Happening.handled) next := by
  cases hworks with
  | dispatched hworker =>
      simp only [List.flatMap_singleton, Happening.delivered, Happening.handled, List.append_nil]
      exact h.dispatched hproper hworker
  | idle hover =>
      simp only [List.flatMap_nil, List.append_nil]
      exact h
  | read hworker =>
      obtain ⟨hinHand, houtstanding, hblamed⟩ := afterRead_books bridge.endpoint.read.1
      simp only [List.flatMap_singleton, Happening.handled, List.append_nil]
      exact h.found (by rw [hworker]; rfl) (by rw [hworker]; rfl) rfl rfl rfl hinHand houtstanding
        hblamed
  | stopping hworker | going hworker | rested hworker | gaveUp hworker =>
      simp only [List.flatMap_singleton, Happening.delivered, Happening.handled]
      rw [List.append_nil handled]
      exact h.found (by rw [hworker]; rfl) (by rw [hworker]; rfl) rfl rfl rfl rfl rfl nofun

end

/-- The last deed of a worker: it saw the flag raised, or it gave up after a read that failed for
good, and then the link has failed unless the flag was raised by then. -/
inductive Ends (log : List Happening) (summary : Summary) : Prop
  | told {front back : List Happening} : log = front ++ .looked true :: back →
      .raised ∈ front → (∀ later ∈ back, later.isDeed = false) → summary.linkFailed = false →
      Ends log summary
  | failed {front back : List Happening} {cause : FrameError} (stop : Bool) :
      log = front ++ .gaveUp stop :: back →
      (front.filter Happening.isDeed).getLast? = some (.read (.error cause)) →
      (cause = .link .closed ∨ ∃ reason, cause = .config reason) →
      (∀ later ∈ back, later.isDeed = false) → (summary.linkFailed = true ↔ .raised ∉ front) →
      Ends log summary

theorem Ends.append {log more : List Happening} {summary : Summary} (h : Ends log summary)
    (hmore : ∀ later ∈ more, later.isDeed = false) : Ends (log ++ more) summary := by
  cases h with
  | told hlog hraised hback hfailed =>
      refine .told ?_ hraised (List.forall_mem_append.mpr ⟨hback, hmore⟩) hfailed
      rw [hlog, List.append_assoc, List.cons_append]
  | failed stop hlog hlast hcause hback hfailed =>
      refine .failed stop ?_ hlast hcause (List.forall_mem_append.mpr ⟨hback, hmore⟩) hfailed
      rw [hlog, List.append_assoc, List.cons_append]

namespace Life
variable {η : Type}

def delivered (life : Life η) : List Frame := life.log.flatMap Happening.delivered

def handled (life : Life η) : List Frame := life.log.flatMap Happening.handled

structure Explained (life : Life η) : Prop where
  raised : life.bridge.cancelled = true ↔ .raised ∈ life.log
  failing : life.bridge.worker = .failing →
    ∃ cause, (life.log.filter Happening.isDeed).getLast? = some (.read (.error cause)) ∧
      cause.isTransient = false
  ended : ∀ summary, life.bridge.worker = .ended summary →
    summary.tally = life.bridge.tally ∧ Ends life.log summary

variable {life next : Life η}

/-- What others than the worker do explains no more and no less. -/
theorem Explained.append (h : life.Explained) {more : List Happening}
    (hlog : next.log = life.log ++ more) (hmore : ∀ later ∈ more, later.isDeed = false)
    (hworker : next.bridge.worker = life.bridge.worker)
    (htally : next.bridge.tally = life.bridge.tally)
    (hraised : next.bridge.cancelled = true ↔ .raised ∈ next.log) : next.Explained := by
  have hnone : more.filter Happening.isDeed = [] :=
    List.filter_eq_nil_iff.mpr fun later hlater => by rw [hmore later hlater]; nofun
  refine ⟨hraised, ?_, ?_⟩
  · rw [hworker, hlog, List.filter_append, hnone, List.append_nil]
    exact h.failing
  · intro summary hended
    rw [hworker] at hended
    obtain ⟨hsame, hends⟩ := h.ended summary hended
    rw [htally, hlog]
    exact ⟨hsame, hends.append hmore⟩

theorem Explained.note (h : life.Explained) {happening : Happening}
    (hlog : next.log = life.log ++ [happening]) (hdeed : happening.isDeed = false)
    (hraised : .raised ≠ happening) (hcancelled : next.bridge.cancelled = life.bridge.cancelled)
    (hworker : next.bridge.worker = life.bridge.worker)
    (htally : next.bridge.tally = life.bridge.tally) : next.Explained := by
  apply h.append hlog (List.forall_mem_singleton.mpr hdeed) hworker htally
  rw [hcancelled, h.raised, hlog, List.mem_append, List.mem_singleton, or_iff_left hraised]

theorem explained_start (host : η) (table : Table) (endpoint : Endpoint) :
    Explained { bridge := { endpoint, host, table, routes := table.inbound } } := by
  refine ⟨⟨nofun, nofun⟩, ?_, ?_⟩
  · intro hfailing
    cases hfailing
  · intro summary hended
    cases hended

theorem Explained.worked [Host η] (h : life.Explained) {deeds : List Happening} {bridge : Bridge η}
    (hworks : life.bridge.Works deeds bridge) :
    Explained { life with bridge, log := life.log ++ deeds } := by
  have hcancelled : bridge.cancelled = life.bridge.cancelled := hworks.keeps.cancelled
  have hraised : bridge.cancelled = true ↔ .raised ∈ life.log ++ deeds := by
    rw [hcancelled, h.raised]
    cases hworks <;> simp
  cases hworks with
  | stopping hworker hstop =>
      refine ⟨hraised, nofun, ?_⟩
      rintro _ ⟨⟩
      exact ⟨rfl, .told rfl (h.raised.mp hstop) nofun rfl⟩
  | going => exact ⟨hraised, nofun, nofun⟩
  | read =>
      refine ⟨hraised, ?_, ?_⟩
      · intro hfailing
        obtain ⟨cause, hcause, htransient⟩ := Bridge.exists_of_afterRead hfailing
        refine ⟨cause, ?_, htransient⟩
        rw [hcause, List.filter_append]
        exact List.getLast?_concat ..
      · intro summary hended
        have hafter : Bridge.afterRead life.bridge.endpoint.read.1 = .ended summary := hended
        have halive := Bridge.isAlive_afterRead life.bridge.endpoint.read.1
        rw [hafter] at halive
        cases halive
  | @dispatched frame hworker =>
      refine ⟨hraised, ?_, ?_⟩
      · intro hfailing
        rcases (life.bridge.dispatches_dispatch frame).worker with h | h <;>
          rw [h] at hfailing <;> cases hfailing
      · intro summary hended
        rcases (life.bridge.dispatches_dispatch frame).worker with h | h <;>
          rw [h] at hended <;> cases hended
  | rested => exact ⟨hraised, nofun, nofun⟩
  | gaveUp hworker =>
      refine ⟨hraised, nofun, ?_⟩
      rintro _ ⟨⟩
      obtain ⟨cause, hlast, htransient⟩ := h.failing hworker
      refine ⟨rfl, .failed _ rfl hlast (isTransient_eq_false_iff.mp htransient) nofun ?_⟩
      rw [← h.raised]
      simp
  | idle =>
      rw [List.append_nil]
      exact h

end Life

namespace Life
variable {η : Type} [Host η] {table : Table} {host : η} {life next : Life η} {turn : Turn}

theorem Explained.takes (h : life.Explained) (htakes : life.Takes turn next) :
    next.Explained := by
  cases htakes with
  | worked => exact h.worked life.bridge.works_step
  | again => exact h.note rfl rfl nofun rfl rfl rfl
  | raised =>
      have hmore : ∀ later ∈ [Happening.raised], later.isDeed = false :=
        List.forall_mem_singleton.mpr rfl
      exact h.append rfl hmore rfl rfl
        ⟨fun _ => List.mem_append_right _ List.mem_cons_self, fun _ => rfl⟩
  | closed => exact h.note rfl rfl nofun rfl rfl rfl
  | marked => exact h.note rfl rfl nofun rfl rfl rfl
  | joined | sent | changed | idle => exact ⟨h.raised, h.failing, h.ended⟩

theorem Explained.run (h : life.Explained) (turns : List Turn) : (life.run turns).Explained :=
  run_induction h (fun htakes hlife => hlife.takes htakes) turns

def Booked (table : Table) (host : η) (life : Life η) : Prop :=
  Books table host life.delivered life.handled life.bridge

theorem Booked.note (h : life.Booked table host) {happening : Happening}
    (hlog : next.log = life.log ++ [happening])
    (hdeed : happening.isDeed = false) (hroutes : next.bridge.routes = life.bridge.routes)
    (hhost : next.bridge.host = life.bridge.host) (htally : next.bridge.tally = life.bridge.tally)
    (hworker : next.bridge.worker = life.bridge.worker) :
    next.Booked table host := by
  have hnothing : happening.delivered = [] ∧ happening.handled = [] := by
    cases happening with
    | raised | closed | returned => exact ⟨rfl, rfl⟩
    | looked | read | dispatched | rested | gaveUp => cases hdeed
  have hdelivered : next.delivered = life.delivered := by
    rw [delivered, hlog, List.flatMap_append, List.flatMap_singleton, hnothing.1, List.append_nil,
      delivered]
  have hhandled : next.handled = life.handled := by
    rw [handled, hlog, List.flatMap_append, List.flatMap_singleton, hnothing.2, List.append_nil,
      handled]
  obtain ⟨hrouted, hinOrder, hasked, hcounted, hsettled, hblamed⟩ := h
  rw [Booked, hdelivered, hhandled]
  exact ⟨hroutes.trans hrouted, hworker ▸ hinOrder, hasked.trans hhost.symm, htally ▸ hcounted,
    by rw [htally, hworker, hsettled], hworker ▸ hblamed⟩

theorem Booked.takes (hproper : table.Proper) (h : life.Booked table host)
    (htakes : life.Takes turn next) : next.Booked table host := by
  cases htakes with
  | worked =>
      have hworks := Books.works hproper h life.bridge.works_step
      rw [delivered, handled, ← List.flatMap_append, ← List.flatMap_append] at hworks
      exact hworks
  | again | raised | closed | marked => exact h.note rfl rfl rfl rfl rfl rfl
  | joined | sent | changed | idle =>
      exact ⟨h.routed, h.inOrder, h.asked, h.counted, h.settled, h.blamed⟩

theorem booked_start (host : η) (endpoint : Endpoint) :
    Booked table host { bridge := { endpoint, host, table, routes := table.inbound } } := by
  refine ⟨rfl, rfl, rfl, rfl, rfl, ?_⟩
  intro hcrashed
  cases hcrashed

theorem Booked.run (hproper : table.Proper) (h : life.Booked table host) (turns : List Turn) :
    (life.run turns).Booked table host :=
  run_induction h (fun htakes hlife => hlife.takes hproper htakes) turns

end Life

/-- Through the whole life of a bridge over any table that can be built, whatever its link, its
owner and its host do: every frame that was read is handed on once and in order, to the publisher of
its inbound topic with its payload or else to nobody, and each is in one counter. An error that may
pass keeps the worker no longer than a rest. A closed link or a bad configuration ends it with its
next step, and the link has failed unless the flag is raised by then. Else it ends only when it sees
the flag raised. -/
theorem Bridge.frames_accounted {η : Type} [Host η] {table : Table} (hbuilt : table.Built)
    {endpoint : Endpoint} {host : η} {bridge : Bridge η}
    (hstart : Bridge.start endpoint table host = .ok bridge) (turns : List Life.Turn) :
    let life := Life.run { bridge } turns
    let asked := publishAll (life.handled.filterMap table.delivery) bridge.host
    life.delivered = life.handled ++ life.bridge.worker.inHand ∧
    life.bridge.host = asked.2 ∧
    life.bridge.tally = table.tally bridge.host life.handled ∧
    life.bridge.tally.total + life.bridge.worker.outstanding = life.delivered.length ∧
    (∀ frame call, table.delivery frame = some call ↔
      call.1 ∈ table.inbound ∧ call.1.topicId = frame.topic ∧ call.2 = frame.payload) ∧
    (∀ frame, Topic.isReserved frame.topic = true → table.delivery frame = none) ∧
    (∀ front cause back,
      life.log.filter Happening.isDeed = front ++ .read (.error cause) :: back →
        Setback cause back life.bridge.worker) ∧
    (life.bridge.worker.isAlive = true →
      ∃ deed, deed.isDeed = true ∧ (life.turn .work).log = life.log ++ [deed]) ∧
    (life.bridge.cancelled = true ↔ .raised ∈ life.log) ∧
    (life.bridge.worker = .failing → ∃ summary, (life.turn .work).bridge.worker = .ended summary ∧
      summary.linkFailed = !life.bridge.cancelled) ∧
    (∀ summary, life.bridge.worker = .ended summary →
      summary.tally = life.bridge.tally ∧ Ends life.log summary) ∧
    (life.bridge.worker = .crashed → .crashed ∈ asked.1) := by
  obtain ⟨later, rfl⟩ := Bridge.exists_of_start hstart
  intro life asked
  have hproper := hbuilt.proper
  have hbooked : life.Booked table later :=
    Life.Booked.run hproper (Life.booked_start later endpoint) turns
  have hexplained : life.Explained :=
    Life.Explained.run (Life.explained_start later table endpoint) turns
  have hweathered : life.Weathered :=
    Life.Weathered.run (Life.weathered_start later table endpoint) turns
  obtain ⟨-, hinOrder, hasked, hcounted, hsettled, hblamed⟩ := hbooked
  refine ⟨hinOrder, hasked.symm, hcounted, hsettled, fun _ _ => hproper.delivery_eq_some_iff,
    fun _ => hproper.delivery_of_reserved, hweathered, ?_, hexplained.raised, ?_,
    hexplained.ended, hblamed⟩
  · intro halive
    obtain ⟨deed, hdeed, hdeeds⟩ := exists_of_isAlive halive
    refine ⟨deed, hdeed, ?_⟩
    rw [Life.turn, hdeeds]
  · intro hfailing
    exact ended_of_failing hfailing

/-- A payload that is published, one on an id of no topic, and one that the host refuses. -/
def busyLink : Link :=
  { Link.stream with
    arrivals := [⟨5, 0, [1]⟩, ⟨6, 1, [2]⟩, ⟨5, 2, [9]⟩].map fun frame =>
      .chunk (Frame.wire .px4 frame) }

/-- A payload that is published, one on an id of no topic, one that the host refuses, then three
errors that pass and one that does not. -/
def roughLink : Link :=
  { busyLink with
    arrivals := busyLink.arrivals ++
      [.fault (.io .inputOutput),
        .fault (.overflow 16 0),
        .chunk ((Frame.wire .px4 ⟨5, 3, [7]⟩).dropLast ++ [8]),
        .fault .closed] }

/-- The link fails unless a shutdown comes between the last read and the step behind it. -/
theorem Bridge.frames_accounted_busy :
    ∃ endpoint bridge, Endpoint.create roughLink {} = .ok endpoint ∧
      Bridge.start endpoint Table.imuTable { poison := [[9]] : Recorder } = .ok bridge ∧
      let life := Life.run { bridge } (List.replicate 18 .work)
      let told := Life.run { bridge } (List.replicate 18 .work ++ [.call .shutdown])
      life.delivered.length = 3 ∧
      life.log.filterMap Happening.fault? =
        [.link (.io .inputOutput), .link (.overflow 16 0), .crcMismatch 5 0xC241 0xC601,
          .link .closed] ∧
      (∃ summary, (life.turn .work).bridge.worker = .ended summary ∧ summary.linkFailed = true ∧
        Ends (life.turn .work).log summary) ∧
      (∃ summary, (told.turn .work).bridge.worker = .ended summary ∧ summary.linkFailed = false ∧
        Ends (told.turn .work).log summary) := by
  have hmappings : Table.ofMappings [Table.imu] = .ok Table.imuTable := rfl
  obtain ⟨endpoint, hcreate⟩ : ∃ endpoint, Endpoint.create roughLink {} = .ok endpoint := ⟨_, rfl⟩
  obtain ⟨bridge, hstart⟩ : ∃ bridge,
      Bridge.start endpoint Table.imuTable { poison := [[9]] : Recorder } = .ok bridge := ⟨_, rfl⟩
  have hseen : (Endpoint.create roughLink {}).toOption.bind (fun endpoint =>
      (Bridge.start endpoint Table.imuTable { poison := [[9]] : Recorder }).toOption.map
        fun bridge =>
          let life := Life.run { bridge } (List.replicate 18 .work)
          let told := Life.run { bridge } (List.replicate 18 .work ++ [.call .shutdown])
          ((life.bridge.tally, life.bridge.worker, life.bridge.cancelled),
            life.log.filterMap Happening.fault?, told.bridge.worker, told.bridge.cancelled)) =
      some ((⟨1, 1, 1⟩, .failing, false),
        [.link (.io .inputOutput), .link (.overflow 16 0), .crcMismatch 5 0xC241 0xC601,
          .link .closed], .failing, true) := by decide +kernel
  rw [hcreate] at hseen
  simp only [Except.toOption, Option.bind_some, hstart, Option.map_some, Option.some.injEq,
    Prod.mk.injEq] at hseen
  obtain ⟨⟨htally, hfailing, hunraised⟩, hfaults, htoldFailing, htoldRaised⟩ := hseen
  obtain ⟨-, -, -, hsettled, -, -, -, -, -, hend, -⟩ :=
    Bridge.frames_accounted (.mappings hmappings) hstart (List.replicate 18 .work)
  obtain ⟨-, -, -, -, -, -, -, -, -, htoldEnd, -⟩ := Bridge.frames_accounted
    (.mappings hmappings) hstart (List.replicate 18 .work ++ [.call .shutdown])
  obtain ⟨-, -, -, -, -, -, -, -, -, -, hends, -⟩ := Bridge.frames_accounted
    (.mappings hmappings) hstart (List.replicate 18 .work ++ [.work])
  obtain ⟨-, -, -, -, -, -, -, -, -, -, htoldEnds, -⟩ := Bridge.frames_accounted
    (.mappings hmappings) hstart ((List.replicate 18 .work ++ [.call .shutdown]) ++ [.work])
  obtain ⟨summary, hended, hfailed⟩ := hend hfailing
  obtain ⟨toldSummary, htoldEnded, htoldFailed⟩ := htoldEnd htoldFailing
  rw [hunraised] at hfailed
  rw [htoldRaised] at htoldFailed
  rw [Life.run_append] at hends htoldEnds
  refine ⟨endpoint, bridge, hcreate, hstart, ?_, hfaults,
    ⟨summary, hended, hfailed, (hends summary hended).2⟩,
    ⟨toldSummary, htoldEnded, htoldFailed, (htoldEnds toldSummary htoldEnded).2⟩⟩
  rw [← hsettled, htally, hfailing]
  rfl

end TopicBridge
