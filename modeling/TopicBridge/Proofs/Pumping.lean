import TopicBridge.Proofs.Outlets
import TopicBridge.Proofs.Passage

/-! Messages from the lines of a host to the link. The host keeps its handles through the whole life
of the bridge. Pumping sends the queue in order, one frame for each message that its topic, its
length and the link let through. An outbound topic of which a later one takes the name is not
reached. -/
namespace TopicBridge

/-- What becomes of one message, if the next number is `seq`: a frame on the outlet of its topic, or
none if the topic has no outlet, the payload is too long or the link refuses the frame. -/
inductive Posts (table : Table) (config : FrameConfig) (refusal : Nat → Option LinkError)
    (seq : UInt8) (message : HostMessage) : Option Frame → Prop
  | unknown : (∀ mapping ∈ table.outbound, mapping.name ≠ message.topic) →
      Posts table config refusal seq message none
  | tooLong : config.effectiveMaxPayload < message.payload.length →
      Posts table config refusal seq message none
  | refused {mapping : TopicMapping} {cause : LinkError} : table.Outlet message.topic mapping →
      message.payload.length ≤ config.effectiveMaxPayload →
      refusal (Frame.wire config.protocol ⟨mapping.topicId, seq, message.payload⟩).length =
        some cause →
      Posts table config refusal seq message none
  | written {mapping : TopicMapping} : table.Outlet message.topic mapping →
      message.payload.length ≤ config.effectiveMaxPayload →
      refusal (Frame.wire config.protocol ⟨mapping.topicId, seq, message.payload⟩).length = none →
      Posts table config refusal seq message (some ⟨mapping.topicId, seq, message.payload⟩)

/-- What becomes of a queue, message by message. Only a frame uses up a number. -/
inductive Pumps (table : Table) (config : FrameConfig) (refusal : Nat → Option LinkError) :
    UInt8 → List HostMessage → List Frame → Prop
  | done (seq : UInt8) : Pumps table config refusal seq [] []
  | withheld {seq : UInt8} {message : HostMessage} {rest : List HostMessage} {frames : List Frame} :
      Posts table config refusal seq message none → Pumps table config refusal seq rest frames →
      Pumps table config refusal seq (message :: rest) frames
  | sent {seq : UInt8} {message : HostMessage} {rest : List HostMessage} {frame : Frame}
      {frames : List Frame} :
      Posts table config refusal seq message (some frame) →
      Pumps table config refusal (seq + 1) rest frames →
      Pumps table config refusal seq (message :: rest) (frame :: frames)

section
variable {table : Table} {config : FrameConfig} {refusal : Nat → Option LinkError} {seq : UInt8}
  {front back queue : List HostMessage} {frames : List Frame} {message : HostMessage}
  {mapping : TopicMapping}

theorem Pumps.split (h : Pumps table config refusal seq (front ++ back) frames) :
    ∃ before after, frames = before ++ after ∧ Pumps table config refusal seq front before ∧
      Pumps table config refusal (seq + UInt8.ofNat before.length) back after := by
  induction front generalizing seq frames with
  | nil => exact ⟨[], frames, rfl, .done seq, by simpa using h⟩
  | cons message rest ih =>
      cases h with
      | withheld hposts hrest =>
          obtain ⟨before, after, rfl, hbefore, hafter⟩ := ih hrest
          exact ⟨before, after, rfl, .withheld hposts hbefore, hafter⟩
      | @sent _ _ _ frame _ hposts hrest =>
          obtain ⟨before, after, rfl, hbefore, hafter⟩ := ih hrest
          refine ⟨frame :: before, after, rfl, .sent hposts hbefore, ?_⟩
          have hseq : seq + UInt8.ofNat (frame :: before).length =
              seq + 1 + UInt8.ofNat before.length := by
            rw [List.length_cons, UInt8.ofNat_add]
            ac_rfl
          rw [hseq]
          exact hafter

/-- A message on a link that takes it goes out on the outlet of its topic. -/
theorem Posts.of_outlet (hproper : table.Proper) {put : Option Frame}
    (h : Posts table config refusal seq message put) (houtlet : table.Outlet message.topic mapping)
    (hsize : message.payload.length ≤ config.effectiveMaxPayload)
    (htakes : refusal (Frame.wire config.protocol
      ⟨mapping.topicId, seq, message.payload⟩).length = none) :
    put = some ⟨mapping.topicId, seq, message.payload⟩ := by
  cases h with
  | unknown hnone => exact absurd houtlet.named (hnone mapping houtlet.outbound)
  | tooLong hlong => exact absurd hsize (Nat.not_le.mpr hlong)
  | refused hother _ hrefusal =>
      rw [houtlet.eq hproper hother, htakes] at hrefusal
      cases hrefusal
  | written hother => rw [houtlet.eq hproper hother]

theorem Pumps.reaches (hproper : table.Proper) (hvalid : config.validate = .ok ())
    (h : Pumps table config refusal seq (front ++ message :: back) frames)
    (houtlet : table.Outlet message.topic mapping)
    (hsize : message.payload.length ≤ config.effectiveMaxPayload)
    (htakes : ∀ length ≤ config.ringCapacity, refusal length = none) :
    ∃ before after,
      frames = before ++
        ⟨mapping.topicId, seq + UInt8.ofNat before.length, message.payload⟩ :: after ∧
      Pumps table config refusal seq front before ∧
      Pumps table config refusal (seq + UInt8.ofNat before.length + 1) back after := by
  obtain ⟨before, rest, rfl, hbefore, hrest⟩ := h.split
  have hfits : (Frame.wire config.protocol
      ⟨mapping.topicId, seq + UInt8.ofNat before.length, message.payload⟩).length ≤
      config.ringCapacity := FrameConfig.length_wire_le_ringCapacity hvalid hsize
  have htaken := htakes _ hfits
  cases hrest with
  | withheld hposts _ => cases hposts.of_outlet hproper houtlet hsize htaken
  | sent hposts hafter =>
      cases hposts.of_outlet hproper houtlet hsize htaken
      exact ⟨before, _, rfl, hbefore, hafter⟩

end

/-- So many frames more are on the link, and no other part of it or of the host has changed. -/
structure Bridge.Adds (bridge : Bridge StdioHost) (frames : List Frame) (next : Bridge StdioHost) :
    Prop where
  link : next.endpoint.link = { bridge.endpoint.link with
    sent := bridge.endpoint.link.sent ++
      (frames.map (Frame.wire bridge.endpoint.writer.config.protocol)).toArray }
  config : next.endpoint.writer.config = bridge.endpoint.writer.config
  nextSeq : next.endpoint.writer.nextSeq =
    bridge.endpoint.writer.nextSeq + UInt8.ofNat frames.length
  host : next.host = bridge.host

/-- The host has the handles of the table, and what it sends is framed as configured. -/
structure Bridge.Wired (table : Table) (config : FrameConfig) (bridge : Bridge StdioHost) :
    Prop where
  outbound : ∃ headerLength,
    bridge.host.outbound = Table.handles headerLength table.outbound .empty
  config : bridge.endpoint.writer.config = config

namespace Bridge
variable {table : Table} {config : FrameConfig} {bridge middle next : Bridge StdioHost}
  {frames more : List Frame}

theorem adds_nil (bridge : Bridge StdioHost) : bridge.Adds [] bridge :=
  ⟨by simp, rfl, by simp, rfl⟩

theorem Adds.append (h : bridge.Adds frames middle) (hmore : middle.Adds more next) :
    bridge.Adds (frames ++ more) next := by
  refine ⟨?_, hmore.config.trans h.config, ?_, hmore.host.trans h.host⟩
  · rw [hmore.link, h.link, h.config]
    simp
  · rw [hmore.nextSeq, h.nextSeq, List.length_append, UInt8.ofNat_add, UInt8.add_assoc]

theorem Adds.refusal (h : bridge.Adds frames next) :
    next.endpoint.link.refusal = bridge.endpoint.link.refusal := by
  rw [h.link]
  rfl

theorem Adds.wired (h : bridge.Adds frames next) (hwired : bridge.Wired table config) :
    next.Wired table config := by
  obtain ⟨headerLength, houtbound⟩ := hwired.outbound
  exact ⟨⟨headerLength, h.host ▸ houtbound⟩, h.config.trans hwired.config⟩

/-- A name leads to the handle of its outlet, or there is no outbound topic of the name. -/
theorem Wired.find?_cases (hproper : table.Proper) (h : bridge.Wired table config) (name : String) :
    (bridge.host.outbound.find? name = none ∧ ∀ mapping ∈ table.outbound, mapping.name ≠ name) ∨
    ∃ handle mapping, bridge.host.outbound.find? name = some handle ∧
      table.Outlet name mapping ∧ handle.topicId = mapping.topicId := by
  obtain ⟨headerLength, houtbound⟩ := h.outbound
  have hfind : bridge.host.outbound.find? name =
      (table.outlet? name).map (·.handle headerLength) := by
    rw [houtbound, Table.find?_handles]
    exact Option.or_none
  rw [hfind]
  cases houtlet : table.outlet? name with
  | none => exact .inl ⟨rfl, Table.outlet?_eq_none_iff.mp houtlet⟩
  | some mapping => exact .inr ⟨_, mapping, rfl, Table.outlet_of_outlet? hproper houtlet, rfl⟩

theorem Wired.pumpOne (hproper : table.Proper) (h : bridge.Wired table config)
    (message : HostMessage) :
    ∃ put, Posts table config bridge.endpoint.link.refusal bridge.endpoint.writer.nextSeq message
        put ∧
      (bridge.pumpOne message).1 = put.toList.length ∧
      bridge.Adds put.toList (bridge.pumpOne message).2 := by
  rw [Bridge.pumpOne]
  rcases h.find?_cases hproper message.topic with
    ⟨hnone, hunknown⟩ | ⟨handle, mapping, hfind, houtlet, hid⟩
  · rw [hnone]
    exact ⟨none, .unknown hunknown, rfl, adds_nil bridge⟩
  · rw [hfind]
    dsimp only
    rw [send, hid]
    have hmax : bridge.endpoint.writer.maxPayload = config.effectiveMaxPayload := by
      rw [Writer.maxPayload, h.config]
    have hwire : bridge.endpoint.wire mapping.topicId message.payload = Frame.wire config.protocol
        ⟨mapping.topicId, bridge.endpoint.writer.nextSeq, message.payload⟩ := by
      rw [Endpoint.wire, h.config]
    have hwrites := bridge.endpoint.writes_write mapping.topicId message.payload
    generalize bridge.endpoint.write mapping.topicId message.payload = answer at hwrites
    cases hwrites with
    | tooLong hlong =>
        rw [hmax] at hlong
        exact ⟨none, .tooLong hlong, rfl, by simp, rfl, by simp [Writer.drop], rfl⟩
    | refused hsize hrefusal =>
        rw [hmax] at hsize
        rw [hwire] at hrefusal
        exact ⟨none, .refused houtlet hsize hrefusal, rfl, by simp, rfl, by simp [Writer.drop], rfl⟩
    | written hsize hrefusal =>
        rw [hmax] at hsize
        rw [hwire] at hrefusal
        refine ⟨some _, .written houtlet hsize hrefusal, rfl, ?_, rfl, rfl, rfl⟩
        simp [hwire, h.config]

theorem Wired.foldl_pumpOne (hproper : table.Proper) (h : bridge.Wired table config)
    (queue : List HostMessage) (count : Nat) :
    ∃ frames, Pumps table config bridge.endpoint.link.refusal bridge.endpoint.writer.nextSeq queue
        frames ∧
      ∃ next, queue.foldl (fun (count, bridge) message =>
          let (sent, bridge) := Bridge.pumpOne bridge message
          (count + sent, bridge)) (count, bridge) = (count + frames.length, next) ∧
        bridge.Adds frames next := by
  induction queue generalizing bridge count with
  | nil => exact ⟨[], .done _, bridge, rfl, adds_nil bridge⟩
  | cons message rest ih =>
      obtain ⟨put, hposts, hcount, hadds⟩ := h.pumpOne hproper message
      obtain ⟨frames, hpumps, next, hrest, hmore⟩ :=
        ih (hadds.wired h) (count + (bridge.pumpOne message).1)
      rw [hadds.refusal, hadds.nextSeq] at hpumps
      refine ⟨put.toList ++ frames, ?_, next, ?_, hadds.append hmore⟩
      · cases put with
        | none => exact .withheld hposts (by simpa using hpumps)
        | some frame => exact .sent hposts hpumps
      · rw [List.foldl_cons, List.length_append, ← Nat.add_assoc, ← hcount]
        exact hrest

theorem Wired.pump (hproper : table.Proper) (h : bridge.Wired table config) :
    ∃ frames, Pumps table config bridge.endpoint.link.refusal bridge.endpoint.writer.nextSeq
        bridge.host.queue frames ∧
      bridge.pump.1 = frames.length ∧
      { bridge with host := { bridge.host with queue := [] } : Bridge StdioHost }.Adds frames
        bridge.pump.2 := by
  have hstart : { bridge with host := { bridge.host with queue := [] } : Bridge StdioHost }.Wired
      table config := ⟨h.outbound, h.config⟩
  obtain ⟨frames, hpumps, next, hfold, hadds⟩ :=
    hstart.foldl_pumpOne hproper bridge.host.queue 0
  refine ⟨frames, hpumps, ?_⟩
  rw [Bridge.pump]
  dsimp only
  rw [hfold, Nat.zero_add]
  exact ⟨rfl, hadds⟩

end Bridge

/-- A turn of the life of the bridge, a message that the host produces, or a pumping. -/
inductive StdioHost.Move where
  | turn (turn : Life.Turn)
  | produce (message : HostMessage)
  | pump

namespace Life

def move (life : Life StdioHost) : StdioHost.Move → Life StdioHost
  | .turn turn => life.turn turn
  | .produce message =>
      { life with bridge := { life.bridge with host := life.bridge.host.enqueue message } }
  | .pump => { life with bridge := life.bridge.pump.2 }

def moves (life : Life StdioHost) (moves : List StdioHost.Move) : Life StdioHost :=
  moves.foldl move life

end Life

theorem StdioHost.outbound_publish (host : StdioHost) (mapping : TopicMapping) (payload : Bytes) :
    (Host.publish host mapping payload).2.outbound = host.outbound := by
  change (host.publish mapping payload).2.outbound = host.outbound
  rw [StdioHost.publish]
  cases host.broken with
  | some cause => rfl
  | none => rfl

namespace Bridge
variable {table : Table} {config : FrameConfig} {bridge next : Bridge StdioHost}

theorem Wired.dispatches (h : bridge.Wired table config) {frame : Frame}
    (hdispatches : bridge.Dispatches frame next) : next.Wired table config := by
  have hkept : ∀ {mapping : TopicMapping} {delivery : Delivery} {host : StdioHost},
      Host.publish bridge.host mapping frame.payload = (delivery, host) →
        host.outbound = bridge.host.outbound := by
    intro mapping delivery host hpublish
    have hsame := bridge.host.outbound_publish mapping frame.payload
    rw [hpublish] at hsame
    exact hsame
  obtain ⟨headerLength, houtbound⟩ := h.outbound
  cases hdispatches with
  | unroutable => exact ⟨⟨headerLength, houtbound⟩, h.config⟩
  | published _ hpublish | refused _ hpublish | crashed _ hpublish =>
      exact ⟨⟨headerLength, (hkept hpublish).trans houtbound⟩, h.config⟩

/-- The worker reads and prints, and leaves alone what a message needs to go out. -/
theorem Wired.works (h : bridge.Wired table config) {deeds : List Happening}
    (hworks : bridge.Works deeds next) : next.Wired table config := by
  cases hworks with
  | dispatched => exact h.dispatches (bridge.dispatches_dispatch _)
  | stopping | going | read | rested | gaveUp | idle => exact ⟨h.outbound, h.config⟩

theorem Wired.send (h : bridge.Wired table config) (topic : OutboundTopic) (payload : Bytes) :
    (bridge.send topic payload).2.Wired table config :=
  ⟨h.outbound, (bridge.endpoint.writes_write topic.topicId payload).config_eq.trans h.config⟩

end Bridge

namespace Life
variable {table : Table} {config : FrameConfig} {life next : Life StdioHost}

theorem wired_takes {turn : Turn} (h : life.bridge.Wired table config)
    (htakes : life.Takes turn next) : next.bridge.Wired table config := by
  cases htakes with
  | worked => exact h.works life.bridge.works_step
  | sent topic payload => exact h.send topic payload
  | again | raised | joined | closed | marked | changed | idle => exact ⟨h.outbound, h.config⟩

theorem wired_move (hproper : table.Proper) (h : life.bridge.Wired table config)
    (move : StdioHost.Move) : (life.move move).bridge.Wired table config := by
  cases move with
  | turn turn => exact wired_takes h (life.takes_turn turn)
  | produce message => exact ⟨h.outbound, h.config⟩
  | pump =>
      obtain ⟨frames, -, -, hadds⟩ := h.pump hproper
      exact hadds.wired ⟨h.outbound, h.config⟩

theorem wired_moves (hproper : table.Proper) (h : life.bridge.Wired table config)
    (moves : List StdioHost.Move) : (life.moves moves).bridge.Wired table config := by
  induction moves generalizing life with
  | nil => exact h
  | cons move moves ih => exact ih (wired_move hproper h move)

end Life

/-- A bridge over a host that speaks in lines starts on every table that can be built. Whatever it,
its owner, its link and its host do from then on, pumping takes up every queued message once and in
order: a message goes out as one frame, with the next number, on the outbound topic of its name that
has the highest id, unless it is too long or the link refuses it; a message of another name writes
nothing; and the frames are counted. An outbound topic that shares its name with no other, as all do
that come from parameters, is therefore reached by every payload that is not too long. -/
theorem Bridge.pump_reaches_last {table : Table} (hbuilt : table.Built) {config : FrameConfig}
    {link : Link} {endpoint : Endpoint} (hcreate : Endpoint.create link config = .ok endpoint)
    {host : StdioHost} (hfresh : host.outbound = .empty) :
    ∃ bridge, Bridge.start endpoint table host = .ok bridge ∧
      (∀ moves : List StdioHost.Move,
        let now := (Life.moves { bridge } moves).bridge
        let later := now.pump.2
        ∃ frames,
          Pumps table config now.endpoint.link.refusal now.endpoint.writer.nextSeq now.host.queue
            frames ∧
          now.pump.1 = frames.length ∧
          later.endpoint.link = { now.endpoint.link with
            sent := now.endpoint.link.sent ++
              (frames.map (Frame.wire config.protocol)).toArray } ∧
          later.host = { now.host with queue := [] } ∧
          ∀ front message back mapping, now.host.queue = front ++ message :: back →
            table.Outlet message.topic mapping →
            message.payload.length ≤ endpoint.maxPayload →
            now.endpoint.link.Takes config.ringCapacity →
            ∃ before after, frames = before ++
              ⟨mapping.topicId, now.endpoint.writer.nextSeq + UInt8.ofNat before.length,
                message.payload⟩ :: after) ∧
      (∀ mapping ∈ table.outbound,
        (∀ other ∈ table.outbound, other.name = mapping.name → other = mapping) →
          table.Outlet mapping.name mapping) ∧
      ∀ params, Table.ofParameters params = .ok table →
        ∀ mapping ∈ table.outbound, table.Outlet mapping.name mapping := by
  have hproper := hbuilt.proper
  obtain ⟨hvalid, -, hwriter, hmax⟩ := Endpoint.exists_of_create hcreate
  refine ⟨_, Bridge.start_stdio hproper host, fun moves => ?_,
    fun mapping => Table.outlet_of_unshared, fun params hparams mapping =>
      Table.outlet_of_parameters hparams⟩
  have hwired : (Life.moves { bridge :=
      { endpoint
        host := { host with
          outbound := Table.handles endpoint.headerLength table.outbound host.outbound }
        table
        routes := table.inbound } } moves).bridge.Wired table config :=
    Life.wired_moves hproper ⟨⟨endpoint.headerLength, by rw [hfresh]⟩, by rw [hwriter]⟩ moves
  intro now later
  obtain ⟨frames, hpumps, hcount, hadds⟩ := hwired.pump hproper
  refine ⟨frames, hpumps, hcount, ?_, hadds.host, ?_⟩
  · rw [← hwired.config]
    exact hadds.link
  · intro front message back mapping hqueue houtlet hsize htakes
    rw [hmax] at hsize
    rw [hqueue] at hpumps
    obtain ⟨before, after, hframes, -, -⟩ :=
      hpumps.reaches hproper hvalid houtlet hsize htakes
    exact ⟨before, after, hframes⟩

namespace Table

/-- Two outbound topics of one name. -/
def twins : Table :=
  ⟨(OrderedMap.empty.insert 5 ⟨5, "cmd", "A", .hostToSerial⟩).insert 6
    ⟨6, "cmd", "B", .hostToSerial⟩⟩

theorem ofMappings_twins : ofMappings twins.mappings = .ok twins := rfl

theorem outlet_twins : twins.Outlet "cmd" ⟨6, "cmd", "B", .hostToSerial⟩ :=
  ⟨by decide, rfl, by decide⟩

end Table

theorem Bridge.pump_reaches_last_twins :
    ∃ endpoint bridge seq, ∃ frames : List Frame, Endpoint.create .stream {} = .ok endpoint ∧
      Bridge.start endpoint Table.twins ({ format := .json } : StdioHost) = .ok bridge ∧
      let now := (Life.moves { bridge } [.produce ⟨"cmd", [1]⟩, .produce ⟨"other", []⟩]).bridge
      now.pump.1 = frames.length ∧ (⟨6, seq, [1]⟩ : Frame) ∈ frames ∧
        now.pump.2.endpoint.link.sent = (frames.map (Frame.wire .px4)).toArray := by
  obtain ⟨endpoint, hcreate⟩ : ∃ endpoint, Endpoint.create .stream {} = .ok endpoint := ⟨_, rfl⟩
  obtain ⟨-, hlink, -, hmax⟩ := Endpoint.exists_of_create hcreate
  have hbuilt : Table.twins.Built := .mappings Table.ofMappings_twins
  have hfresh : ({ format := .json } : StdioHost).outbound = .empty := rfl
  obtain ⟨bridge, hstart, hpump, -⟩ := Bridge.pump_reaches_last hbuilt hcreate hfresh
  obtain rfl := Except.ok.inj (hstart.symm.trans (Bridge.start_stdio hbuilt.proper _))
  obtain ⟨frames, -, hcount, hsent, -, hreach⟩ :=
    hpump [.produce ⟨"cmd", [1]⟩, .produce ⟨"other", []⟩]
  have htakes : endpoint.link.Takes ({} : FrameConfig).ringCapacity := by
    rw [hlink]
    exact fun _ _ => rfl
  obtain ⟨before, after, rfl⟩ := hreach [] ⟨"cmd", [1]⟩ [⟨"other", []⟩] _ rfl
    Table.outlet_twins (by rw [hmax]; decide) htakes
  refine ⟨endpoint, _, _, _, hcreate, hstart, hcount,
    List.mem_append_right before List.mem_cons_self, ?_⟩
  rw [hsent]
  change endpoint.link.sent ++ _ = _
  rw [hlink]
  exact Array.empty_append

/-- The first of two outbound topics of one name is not reached by a message on its name. -/
theorem Bridge.not_every_outbound_reached :
    ¬ ∀ (table : Table) (endpoint : Endpoint) (bridge : Bridge StdioHost) (mapping : TopicMapping)
        (payload : Bytes),
      table.Built → Endpoint.create .stream {} = .ok endpoint →
      Bridge.start endpoint table ({ format := .json } : StdioHost) = .ok bridge →
      mapping ∈ table.outbound → payload.length ≤ endpoint.maxPayload →
      let later := (Life.moves { bridge } [.produce ⟨mapping.name, payload⟩, .pump]).bridge
      ∃ seq, Frame.wire .px4 ⟨mapping.topicId, seq, payload⟩ ∈ later.endpoint.link.sent := by
  intro hclaim
  obtain ⟨endpoint, hcreate⟩ : ∃ endpoint, Endpoint.create .stream {} = .ok endpoint := ⟨_, rfl⟩
  obtain ⟨bridge, hstart⟩ : ∃ bridge,
      Bridge.start endpoint Table.twins ({ format := .json } : StdioHost) = .ok bridge := ⟨_, rfl⟩
  have hseen : (Endpoint.create .stream {}).toOption.bind (fun endpoint =>
      (Bridge.start endpoint Table.twins ({ format := .json } : StdioHost)).toOption.map
        fun bridge =>
          (Life.moves { bridge } [.produce ⟨"cmd", [1]⟩, .pump]).bridge.endpoint.link.sent) =
      some #[Frame.wire .px4 ⟨6, 0, [1]⟩] := by decide +kernel
  rw [hcreate] at hseen
  simp only [Except.toOption, Option.bind_some, hstart, Option.map_some] at hseen
  obtain ⟨-, -, -, hmax⟩ := Endpoint.exists_of_create hcreate
  obtain ⟨seq, hmem⟩ := hclaim Table.twins endpoint bridge ⟨5, "cmd", "A", .hostToSerial⟩ [1]
    (.mappings Table.ofMappings_twins) hcreate hstart (by decide) (by rw [hmax]; decide)
  rw [Option.some.inj hseen] at hmem
  have hsame := Array.mem_singleton.mp hmem
  have htopic : some (5 : UInt8) = some 6 := congrArg (·[3]?) hsame
  cases htopic

end TopicBridge
