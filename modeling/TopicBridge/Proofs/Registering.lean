import TopicBridge.Proofs.Closing
import TopicBridge.Proofs.Outlets
import TopicBridge.Proofs.Passage

/-! Registration. A host is offered the topics of a table one after the other, in the order of their
ids. The first offer that it refuses ends the start and closes the link, so that the handles it was
given before then are good for nothing. -/
namespace TopicBridge

/-- What a host is asked for one topic. -/
inductive Offer where
  | publisher (mapping : TopicMapping)
  | subscription (mapping : TopicMapping) (handle : OutboundTopic)
  deriving DecidableEq

namespace Offer

/-- No offer is made for a topic of unknown direction. -/
def of? (headerLength : Nat) (mapping : TopicMapping) : Option Offer :=
  match mapping.direction with
  | .serialToHost => some (.publisher mapping)
  | .hostToSerial => some (.subscription mapping (mapping.handle headerLength))
  | .unknown => none

def mapping : Offer → TopicMapping
  | .publisher mapping => mapping
  | .subscription mapping _ => mapping

def publisher? : Offer → Option TopicMapping
  | .publisher mapping => some mapping
  | .subscription _ _ => none

def handle? : Offer → Option OutboundTopic
  | .publisher _ => none
  | .subscription _ handle => some handle

def make {η : Type} [Host η] (host : η) : Offer → Except BridgeError η
  | .publisher mapping => Host.openInbound host mapping
  | .subscription mapping handle => Host.openOutbound host mapping handle

end Offer

def offerAll {η : Type} [Host η] : List Offer → η → Except BridgeError Unit × η
  | [], host => (.ok (), host)
  | offer :: rest, host =>
      match offer.make host with
      | .error cause => (.error cause, host)
      | .ok next => offerAll rest next

/-- The offers for the topics of a table, by ascending id. -/
def Table.offers (headerLength : Nat) (table : Table) : List Offer :=
  table.mappings.filterMap (Offer.of? headerLength)

namespace Table
variable {table : Table} {mappings : List TopicMapping}

theorem map_of?_eq (headerLength : Nat)
    (hknown : ∀ mapping ∈ mappings, mapping.direction ≠ .unknown) :
    mappings.map (Offer.of? headerLength) =
      (mappings.filterMap (Offer.of? headerLength)).map some := by
  induction mappings with
  | nil => rfl
  | cons mapping rest ih =>
      obtain ⟨hfirst, hrest⟩ := List.forall_mem_cons.mp hknown
      cases hdirection : mapping.direction with
      | serialToHost | hostToSerial => simp [Offer.of?, hdirection, ih hrest]
      | unknown => exact absurd hdirection hfirst

theorem Proper.map_of? (h : table.Proper) (headerLength : Nat) :
    table.mappings.map (Offer.of? headerLength) = (table.offers headerLength).map some :=
  map_of?_eq headerLength fun _ hmapping => (h.placed hmapping).known

theorem filterMap_publisher? (headerLength : Nat) (table : Table) :
    (table.offers headerLength).filterMap Offer.publisher? = table.inbound := by
  rw [offers, List.filterMap_filterMap, inbound, ← List.filterMap_eq_filter]
  congr 1
  funext mapping
  cases hdirection : mapping.direction with
  | serialToHost | hostToSerial | unknown =>
      simp [Offer.of?, Offer.publisher?, hdirection, Option.guard]

theorem filterMap_handle? (headerLength : Nat) (table : Table) :
    (table.offers headerLength).filterMap Offer.handle? =
      table.outbound.map (·.handle headerLength) := by
  rw [offers, List.filterMap_filterMap, outbound, ← List.filterMap_eq_filter, List.map_filterMap]
  congr 1
  funext mapping
  cases hdirection : mapping.direction with
  | serialToHost | hostToSerial | unknown =>
      simp [Offer.of?, Offer.handle?, hdirection, Option.guard]

theorem Proper.offers_ascending (h : table.Proper) (headerLength : Nat) :
    (table.offers headerLength).Pairwise fun a b => a.mapping.topicId < b.mapping.topicId := by
  have hsame : ∀ mapping offer, Offer.of? headerLength mapping = some offer →
      offer.mapping = mapping := by
    intro mapping offer hoffer
    cases hdirection : mapping.direction with
    | serialToHost | hostToSerial =>
        simp only [Offer.of?, hdirection, Option.some.injEq] at hoffer
        rw [← hoffer]
        rfl
    | unknown => simp [Offer.of?, hdirection] at hoffer
  rw [offers, List.pairwise_filterMap]
  refine h.ascending.imp ?_
  intro a b hlt first hfirst second hsecond
  rw [hsame a first hfirst, hsame b second hsecond]
  exact hlt

end Table

section
variable {η : Type} [Host η] {offers : List Offer} {host last before : η} {cause : BridgeError}

theorem offerAll_eq_ok_iff :
    offerAll offers host = (.ok (), last) ↔ offers.foldlM Offer.make host = .ok last := by
  induction offers generalizing host with
  | nil => simp [offerAll, pure, Except.pure]
  | cons offer rest ih =>
      rw [offerAll, List.foldlM_cons]
      cases hmake : offer.make host with
      | error cause => simp [bind, Except.bind]
      | ok next => exact ih

theorem offerAll_eq_error_iff :
    offerAll offers host = (.error cause, before) ↔
      ∃ front offer back, offers = front ++ offer :: back ∧
        front.foldlM Offer.make host = .ok before ∧ offer.make before = .error cause := by
  constructor
  · intro h
    induction offers generalizing host with
    | nil => cases h
    | cons offer rest ih =>
        rw [offerAll] at h
        cases hmake : offer.make host with
        | error refusal =>
            rw [hmake] at h
            cases h
            exact ⟨[], offer, rest, rfl, rfl, hmake⟩
        | ok next =>
            rw [hmake] at h
            obtain ⟨front, refused, back, hrest, hfront, hrefused⟩ := ih h
            refine ⟨offer :: front, refused, back, by rw [hrest, List.cons_append], ?_, hrefused⟩
            rw [List.foldlM_cons, hmake]
            exact hfront
  · rintro ⟨front, offer, back, rfl, hfront, hrefused⟩
    induction front generalizing host with
    | nil =>
        cases hfront
        rw [List.nil_append, offerAll, hrefused]
    | cons first rest ih =>
        rw [List.foldlM_cons] at hfront
        rw [List.cons_append, offerAll]
        cases hmake : first.make host with
        | error refusal =>
            rw [hmake] at hfront
            cases hfront
        | ok next =>
            rw [hmake] at hfront
            exact ih hfront

end

namespace Bridge
variable {η : Type} [Host η] {table : Table} {mappings : List TopicMapping} {offers : List Offer}

theorem registerOne_eq {headerLength : Nat} {mapping : TopicMapping} {offer : Offer}
    (hoffer : Offer.of? headerLength mapping = some offer) (host : η) :
    registerOne headerLength host mapping =
      (offer.make host).map fun next => (offer.publisher?.toList, next) := by
  cases hdirection : mapping.direction with
  | serialToHost | hostToSerial =>
      simp only [Offer.of?, hdirection, Option.some.injEq] at hoffer
      rw [registerOne, hdirection, ← hoffer]
      rfl
  | unknown => simp [Offer.of?, hdirection] at hoffer

/-- Topics that all have an offer are registered by making these offers. -/
theorem register_eq {headerLength : Nat}
    (hoffers : mappings.map (Offer.of? headerLength) = offers.map some) (host : η) :
    register headerLength mappings host =
      ((offerAll offers host).1.map fun _ => offers.filterMap Offer.publisher?,
       (offerAll offers host).2) := by
  induction mappings generalizing offers host with
  | nil =>
      obtain rfl := List.map_eq_nil_iff.mp hoffers.symm
      rfl
  | cons mapping rest ih =>
      obtain ⟨offer, more, rfl, hoffer, hmore⟩ := List.map_eq_cons_iff.mp hoffers.symm
      rw [register, registerOne_eq hoffer.symm, offerAll]
      cases hmake : offer.make host with
      | error cause => rfl
      | ok next =>
          simp only [Except.map, ih hmore.symm]
          cases (offerAll more next).1 with
          | error cause => rfl
          | ok done =>
              cases offer with
              | publisher | subscription => rfl

theorem start_eq (hproper : table.Proper) (endpoint : Endpoint) (host : η) :
    start endpoint table host =
      match offerAll (table.offers endpoint.headerLength) host with
      | (.ok (), last) => .ok { endpoint, host := last, table, routes := table.inbound }
      | (.error cause, before) => .error ⟨cause, endpoint.close.2, before⟩ := by
  rw [start, register_eq (hproper.map_of? _), Table.filterMap_publisher?]
  rcases offerAll (table.offers endpoint.headerLength) host with ⟨answer, next⟩
  cases answer with
  | error cause => rfl
  | ok done => rfl

theorem start_eq_ok_iff (hproper : table.Proper) {endpoint : Endpoint} {host : η}
    {bridge : Bridge η} :
    start endpoint table host = .ok bridge ↔
      ∃ last, (table.offers endpoint.headerLength).foldlM Offer.make host = .ok last ∧
        bridge = { endpoint, host := last, table, routes := table.inbound } := by
  simp only [start_eq hproper, ← offerAll_eq_ok_iff]
  rcases offerAll (table.offers endpoint.headerLength) host with ⟨answer, next⟩
  cases answer with
  | error cause => simp
  | ok done => simp [eq_comm]

theorem start_eq_error_iff (hproper : table.Proper) {endpoint : Endpoint} {host : η}
    {failure : StartFailure η} :
    start endpoint table host = .error failure ↔
      failure.endpoint = endpoint.close.2 ∧
        ∃ front offer back, table.offers endpoint.headerLength = front ++ offer :: back ∧
          front.foldlM Offer.make host = .ok failure.host ∧
          offer.make failure.host = .error failure.cause := by
  obtain ⟨cause, left, before⟩ := failure
  simp only [start_eq hproper, ← offerAll_eq_error_iff]
  rcases offerAll (table.offers endpoint.headerLength) host with ⟨answer, next⟩
  cases answer with
  | error refusal =>
      simp only [Except.error.injEq, StartFailure.mk.injEq, Prod.mk.injEq]
      constructor
      · rintro ⟨rfl, rfl, rfl⟩
        exact ⟨rfl, rfl, rfl⟩
      · rintro ⟨rfl, rfl, rfl⟩
        exact ⟨rfl, rfl, rfl⟩
  | ok done => simp

end Bridge

def OutboundTopic.send (topic : OutboundTopic) (endpoint : Endpoint) (payload : Bytes) :
    Except BridgeError Nat × Endpoint :=
  ((endpoint.write topic.topicId payload).1.mapError .frame,
   (endpoint.write topic.topicId payload).2)

theorem Bridge.send_eq {η : Type} [Host η] (bridge : Bridge η) (topic : OutboundTopic)
    (payload : Bytes) :
    bridge.send topic payload =
      ((topic.send bridge.endpoint payload).1,
       { bridge with endpoint := (topic.send bridge.endpoint payload).2 }) := rfl

/-- What can still happen when there is no bridge: a host uses a handle, or the link changes. -/
inductive Aftermath where
  | send (topic : OutboundTopic) (payload : Bytes)
  | outside (outside : Outside)

namespace Endpoint
variable {endpoint now : Endpoint}

def suffer (endpoint : Endpoint) : Aftermath → Endpoint
  | .send topic payload => (topic.send endpoint payload).2
  | .outside outside => { endpoint with link := outside.change endpoint.link }

def after (endpoint : Endpoint) (moves : List Aftermath) : Endpoint := moves.foldl suffer endpoint

/-- Closed, and as it was except for counters of the writer and for what arrives. -/
structure Spent (endpoint now : Endpoint) : Prop where
  closed : now.link.closed = true
  sent : now.link.sent = endpoint.link.sent
  unread : endpoint.link.arrivals <+: now.link.arrivals
  reader : now.reader = endpoint.reader
  config : now.writer.config = endpoint.writer.config
  nextSeq : now.writer.nextSeq = endpoint.writer.nextSeq

theorem spent_close (endpoint : Endpoint) : endpoint.Spent endpoint.close.2 :=
  ⟨rfl, rfl, List.prefix_rfl, rfl, rfl, rfl⟩

theorem Spent.suffer (h : endpoint.Spent now) (move : Aftermath) :
    endpoint.Spent (now.suffer move) := by
  cases move with
  | send topic payload =>
      have hwrites := now.writes_write topic.topicId payload
      have hsame : (now.suffer (.send topic payload)) = (now.write topic.topicId payload).2 := rfl
      rw [hsame]
      generalize now.write topic.topicId payload = answer at hwrites
      have ⟨hclosed, hsent, hunread, hreader, hconfig, hnext⟩ := h
      cases hwrites with
      | tooLong | refused => exact ⟨hclosed, hsent, hunread, hreader, hconfig, hnext⟩
      | written _ htakes => cases (Link.refusal_of_closed hclosed _).symm.trans htakes
  | outside outside =>
      refine ⟨outside.closed_change h.closed, (outside.sent_change _).trans h.sent, ?_, h.reader,
        h.config, h.nextSeq⟩
      cases outside with
      | arrive arrival => exact h.unread.trans (List.prefix_append _ _)
      | close | failSend | failClose => exact h.unread

theorem Spent.after (h : endpoint.Spent now) (moves : List Aftermath) :
    endpoint.Spent (now.after moves) := by
  induction moves generalizing now with
  | nil => exact h
  | cons move moves ih => exact ih (h.suffer move)

theorem config_suffer (endpoint : Endpoint) (move : Aftermath) :
    (endpoint.suffer move).writer.config = endpoint.writer.config := by
  cases move with
  | send topic payload => exact (endpoint.writes_write topic.topicId payload).config_eq
  | outside => rfl

theorem config_after (endpoint : Endpoint) (moves : List Aftermath) :
    (endpoint.after moves).writer.config = endpoint.writer.config := by
  induction moves generalizing endpoint with
  | nil => rfl
  | cons move moves ih => exact (ih (endpoint.suffer move)).trans (endpoint.config_suffer move)

theorem Spent.send (h : endpoint.Spent now) (topic : OutboundTopic) {payload : Bytes}
    (hsize : payload.length ≤ endpoint.writer.maxPayload) :
    topic.send now payload =
      (.error (.frame (.link .closed)), { now with writer := now.writer.drop }) := by
  have hmax : payload.length ≤ now.writer.maxPayload := by
    rw [Writer.maxPayload, h.config]
    exact hsize
  rw [OutboundTopic.send, write_of_closed h.closed topic.topicId hmax]
  rfl

end Endpoint

/-- Every topic of a table is offered to the host once, by ascending id: a publisher for each
inbound one, a handle for each outbound one. If the host grants all of it there is a bridge, and
else the start ends with the first refusal, as does one that has no table. Then the link is closed
and stays so: nothing is read from it, and no send through a handle, whatever was sent before,
puts anything on it. -/
theorem Bridge.start_settles {η : Type} [Host η] {table : Table} (hbuilt : table.Built)
    (endpoint : Endpoint) (host : η) :
    let offers := table.offers endpoint.headerLength
    (table.mappings.map (Offer.of? endpoint.headerLength) = offers.map some ∧
      offers.filterMap Offer.publisher? = table.inbound ∧
      offers.filterMap Offer.handle? = table.outbound.map (·.handle endpoint.headerLength) ∧
      offers.Pairwise fun a b => a.mapping.topicId < b.mapping.topicId) ∧
    (∀ bridge, start endpoint table host = .ok bridge ↔
      ∃ last, offers.foldlM Offer.make host = .ok last ∧
        bridge = { endpoint, host := last, table, routes := table.inbound }) ∧
    (∀ failure, start endpoint table host = .error failure ↔
      failure.endpoint = endpoint.close.2 ∧
        ∃ front offer back, offers = front ++ offer :: back ∧
          front.foldlM Offer.make host = .ok failure.host ∧
          offer.make failure.host = .error failure.cause) ∧
    (∀ opened settings params reads cause,
      Negotiation.loadTable settings params reads opened = (.error cause, endpoint) →
      startOn opened settings params reads host = .error ⟨cause, endpoint.close.2, host⟩) ∧
    ∀ earlier later, let used := endpoint.after earlier
      let now := used.close.2.after later
      used.Spent now ∧
      ∀ (topic : OutboundTopic) (payload : Bytes),
        payload.length ≤ endpoint.writer.maxPayload →
        topic.send now payload =
          (.error (.frame (.link .closed)), { now with writer := now.writer.drop }) := by
  have hproper := hbuilt.proper
  refine ⟨⟨hproper.map_of? _, table.filterMap_publisher? _, table.filterMap_handle? _,
    hproper.offers_ascending _⟩, fun _ => start_eq_ok_iff hproper,
    fun _ => start_eq_error_iff hproper, ?_, ?_⟩
  · intro opened settings params reads cause hload
    rw [startOn, hload]
  · intro earlier later
    have hspent := ((endpoint.after earlier).spent_close).after later
    refine ⟨hspent, fun topic payload hsize => hspent.send topic ?_⟩
    rw [Writer.maxPayload, endpoint.config_after]
    exact hsize

namespace Table

def mixed : Table :=
  ⟨((OrderedMap.empty.insert 3 ⟨3, "cmd", "Cmd", .hostToSerial⟩).insert 5 imu).insert 7
    ⟨7, "led", "Led", .hostToSerial⟩⟩

theorem built_mixed : mixed.Built :=
  .mappings (show ofMappings mixed.mappings = .ok mixed by decide)

end Table

/-- The second of three topics is refused, by a host that has a handle already, and closing
reports a failure. -/
theorem Bridge.start_settles_refused :
    ∃ endpoint, Endpoint.create { Link.stream with closeFault := some .closed } {} = .ok endpoint ∧
      let handle : OutboundTopic := ⟨3, "cmd", endpoint.headerLength⟩
      start endpoint Table.mixed ({ refused := ["imu"] } : Recorder) =
        .error ⟨.host "no type support for Imu", endpoint.close.2,
          { refused := ["imu"], outbound := #[handle] }⟩ ∧
      endpoint.close.1 = .error (.link .closed) ∧
      (handle.send endpoint [1]).1 = .ok 1 ∧
      (handle.send endpoint.close.2 [1]).1 = .error (.frame (.link .closed)) := by
  obtain ⟨endpoint, hcreate⟩ : ∃ endpoint,
      Endpoint.create { Link.stream with closeFault := some .closed } {} = .ok endpoint := ⟨_, rfl⟩
  obtain ⟨-, hlink, hwriter, -⟩ := Endpoint.exists_of_create hcreate
  obtain ⟨-, -, herror, -, hleft⟩ :=
    Bridge.start_settles Table.built_mixed endpoint ({ refused := ["imu"] } : Recorder)
  have hsize : ([1] : Bytes).length ≤ endpoint.writer.maxPayload := by
    rw [hwriter]
    decide
  refine ⟨endpoint, hcreate, ?_, ?_, ?_, ?_⟩
  · apply (herror _).mpr
    exact ⟨rfl, [.subscription _ ⟨3, "cmd", endpoint.headerLength⟩], .publisher Table.imu,
      [.subscription _ ⟨7, "led", endpoint.headerLength⟩], rfl, rfl, rfl⟩
  · rw [Endpoint.close, hlink]
    rfl
  · have htakes : endpoint.link.refusal (endpoint.wire 3 [1]).length = none := by
      rw [hlink]
      rfl
    have hwrite := (endpoint.writes_write 3 [1]).of_takes hsize htakes
    rw [OutboundTopic.send, hwrite]
    rfl
  · obtain ⟨-, hsend⟩ := hleft [] []
    exact congrArg Prod.fst (hsend ⟨3, "cmd", endpoint.headerLength⟩ [1] hsize)

end TopicBridge
