import TopicBridge.Proofs.Passage

/-! Two framed endpoints whose links are each other's peer, under any interleaving of writes and
reads at both ends. In each direction the frames read and those still queued are the frames written,
with their numbers. One move keeps that, so every run does. -/
namespace TopicBridge

open Endpoint.Pair (Side)

/-- What a write is made through. All handles of an end share its one writer and take turns. -/
inductive Handle where
  | owner
  | clone (index : Nat)

inductive Move where
  | read
  | write (handle : Handle) (topic : UInt8) (payload : Bytes)

inductive Event where
  | read (result : Except FrameError (Option Frame))
  | write (topic : UInt8) (payload : Bytes) (result : Except FrameError Nat)

namespace Event

def frames : Event → List Frame
  | .read (.ok (some frame)) => [frame]
  | _ => []

/-- The topic and payload that a write has got onto the link. -/
def written : Event → List (UInt8 × Bytes)
  | .write topic payload (.ok _) => [(topic, payload)]
  | _ => []

/-- Reads do not fail, and of writes just those over the limit. -/
def Expected (config : FrameConfig) : Event → Prop
  | .read result => ∃ found, result = .ok found
  | .write _ payload result =>
      result =
        if payload.length ≤ config.effectiveMaxPayload then .ok payload.length
        else .error (.payloadTooLarge payload.length config.effectiveMaxPayload)

@[simp] theorem written_read (result : Except FrameError (Option Frame)) :
    (read result).written = [] := rfl

@[simp] theorem written_of_error (topic : UInt8) (payload : Bytes) (cause : FrameError) :
    (write topic payload (.error cause)).written = [] := rfl

theorem eq_of_mem_written {topic : UInt8} {payload : Bytes} {result : Except FrameError Nat}
    {sent : UInt8 × Bytes} (h : sent ∈ (write topic payload result).written) :
    sent = (topic, payload) := by
  cases result with
  | error cause => cases h
  | ok length => exact List.mem_singleton.mp h

@[simp] theorem frames_write (topic : UInt8) (payload : Bytes) (result : Except FrameError Nat) :
    (write topic payload result).frames = [] := rfl

end Event

/-- The frames of the messages, numbered from zero on in one octet. -/
def numbered (messages : List (UInt8 × Bytes)) : List Frame :=
  messages.mapIdx fun index message => ⟨message.1, UInt8.ofNat index, message.2⟩

theorem numbered_concat (messages : List (UInt8 × Bytes)) (topic : UInt8) (payload : Bytes) :
    numbered (messages ++ [(topic, payload)]) =
      numbered messages ++ [⟨topic, UInt8.ofNat messages.length, payload⟩] :=
  List.mapIdx_concat

theorem map_numbered (messages : List (UInt8 × Bytes)) :
    (numbered messages).map (fun frame => (frame.topic, frame.payload)) = messages := by
  apply List.ext_getElem?
  intro index
  cases h : messages[index]? <;> simp [numbered, h]

/-- A frame among those sent to an end is a message of the other end. -/
theorem mem_of_mem_numbered {messages : List (UInt8 × Bytes)} {frame : Frame}
    (h : frame ∈ numbered messages) : (frame.topic, frame.payload) ∈ messages := by
  rw [← map_numbered messages]
  exact List.mem_map_of_mem h

structure Exchange where
  pair : Endpoint.Pair
  log : List (Side × Event) := []

namespace Exchange

def after (exchange : Exchange) (pair : Endpoint.Pair) (side : Side) (event : Event) : Exchange :=
  { pair, log := exchange.log ++ [(side, event)] }

def move (exchange : Exchange) (side : Side) : Move → Exchange
  | .read =>
      let answer := exchange.pair.read side
      exchange.after answer.2 side (.read answer.1)
  | .write _ topic payload =>
      let answer := exchange.pair.write side topic payload
      exchange.after answer.2 side (.write topic payload answer.1)

def run (exchange : Exchange) : List (Side × Move) → Exchange
  | [] => exchange
  | (side, move) :: moves => (exchange.move side move).run moves

def events (exchange : Exchange) (side : Side) : List Event :=
  exchange.log.filterMap fun entry => if entry.1 = side then some entry.2 else none

def frames (exchange : Exchange) (side : Side) : List Frame :=
  (exchange.events side).flatMap Event.frames

def written (exchange : Exchange) (side : Side) : List (UInt8 × Bytes) :=
  (exchange.events side).flatMap Event.written

/-- What holds at one end, with `missing` for the frames that were sent to it and not read yet. -/
structure Holds (config : FrameConfig) (exchange : Exchange) (side : Side)
    (missing : List Frame) : Prop where
  ready : (exchange.pair.get side).Ready config (exchange.written side).length
  expected : ∀ event ∈ exchange.events side, event.Expected config
  queued : (exchange.pair.get side).link.arrivals =
    missing.map fun frame => .chunk (frame.wire config.protocol)
  fits : ∀ frame ∈ missing, frame.payload.length ≤ config.effectiveMaxPayload
  conserved : exchange.frames side ++ missing = numbered (exchange.written side.other)

section
variable {config : FrameConfig} {exchange : Exchange} {side : Side} {missing : List Frame}
  {pair : Endpoint.Pair} {event : Event}

@[simp] theorem pair_after : (exchange.after pair side event).pair = pair := rfl

@[simp] theorem events_after :
    (exchange.after pair side event).events side = exchange.events side ++ [event] := by
  simp [events, after]

@[simp] theorem events_after_other :
    (exchange.after pair side event).events side.other = exchange.events side.other := by
  simp [events, after, side.other_ne.symm]

@[simp] theorem frames_after :
    (exchange.after pair side event).frames side = exchange.frames side ++ event.frames := by
  simp [frames]

@[simp] theorem frames_after_other :
    (exchange.after pair side event).frames side.other = exchange.frames side.other := by
  simp [frames]

@[simp] theorem written_after :
    (exchange.after pair side event).written side = exchange.written side ++ event.written := by
  simp [written]

@[simp] theorem written_after_other :
    (exchange.after pair side event).written side.other = exchange.written side.other := by
  simp [written]

theorem events_after_at (either : Side) :
    (exchange.after pair side event).events either =
      exchange.events either ++ if side = either then [event] else [] := by
  by_cases h : side = either <;> simp [events, after, h]

theorem frames_after_at (either : Side) :
    (exchange.after pair side event).frames either =
      exchange.frames either ++ if side = either then event.frames else [] := by
  by_cases h : side = either <;> simp [frames, events_after_at, h]

theorem written_after_at (either : Side) :
    (exchange.after pair side event).written either =
      exchange.written either ++ if side = either then event.written else [] := by
  by_cases h : side = either <;> simp [written, events_after_at, h]

theorem mem_log_of_mem_frames {frame : Frame} (h : frame ∈ exchange.frames side) :
    (side, Event.read (.ok (some frame))) ∈ exchange.log := by
  obtain ⟨event, hevent, hframe⟩ := List.mem_flatMap.mp h
  obtain ⟨entry, hentry, hside⟩ := List.mem_filterMap.mp hevent
  have hread : event = .read (.ok (some frame)) := by
    revert hframe
    rcases event with (cause | _ | found) | _ <;> simp [Event.frames, eq_comm]
  obtain ⟨either, event⟩ := entry
  by_cases h : either = side
  · simp only [h, if_true, Option.some.injEq] at hside
    rw [← hread, ← hside, ← h]
    exact hentry
  · simp [h] at hside

/-- At the end where something happens, the frames read come off those that were missing. -/
theorem Holds.here {rest : List Frame} (h : Holds config exchange side missing)
    (hready : (pair.get side).Ready config (exchange.written side ++ event.written).length)
    (hexpected : event.Expected config) (hmissing : missing = event.frames ++ rest)
    (hqueued : (pair.get side).link.arrivals =
      rest.map fun frame => .chunk (frame.wire config.protocol)) :
    Holds config (exchange.after pair side event) side rest := by
  refine ⟨?_, ?_, hqueued, ?_, ?_⟩
  · rw [written_after]
    exact hready
  · rw [events_after]
    exact List.forall_mem_append.mpr ⟨h.expected, List.forall_mem_singleton.mpr hexpected⟩
  · intro frame hframe
    exact h.fits frame (hmissing ▸ List.mem_append_right _ hframe)
  · rw [frames_after, written_after_other, List.append_assoc, ← hmissing, h.conserved]

/-- At the other end, the frames written join those that are missing. -/
theorem Holds.there {sent : List Frame} (h : Holds config exchange side.other missing)
    (hready : (pair.get side.other).Ready config (exchange.written side.other).length)
    (hnumbered : numbered (exchange.written side ++ event.written) =
      numbered (exchange.written side) ++ sent)
    (hfits : ∀ frame ∈ sent, frame.payload.length ≤ config.effectiveMaxPayload)
    (hqueued : (pair.get side.other).link.arrivals =
      (exchange.pair.get side.other).link.arrivals ++
        sent.map fun frame => .chunk (frame.wire config.protocol)) :
    Holds config (exchange.after pair side event) side.other (missing ++ sent) := by
  have hconserved := h.conserved
  rw [side.other_other] at hconserved
  refine ⟨?_, ?_, ?_, ?_, ?_⟩
  · rw [written_after_other]
    exact hready
  · rw [events_after_other]
    exact h.expected
  · rw [pair_after, hqueued, h.queued, List.map_append]
  · exact List.forall_mem_append.mpr ⟨h.fits, hfits⟩
  · rw [frames_after_other, side.other_other, written_after, hnumbered, ← List.append_assoc,
      hconserved]

/-- An event without a message is nothing to the other end. -/
theorem Holds.there_of_silent (h : Holds config exchange side.other missing)
    (hget : pair.get side.other = exchange.pair.get side.other) (hsilent : event.written = []) :
    Holds config (exchange.after pair side event) side.other missing := by
  have hsame : Holds config (exchange.after pair side event) side.other (missing ++ []) := by
    apply h.there
    · rw [hget]
      exact h.ready
    · rw [hsilent, List.append_nil, List.append_nil]
    · exact List.forall_mem_nil _
    · rw [hget, List.map_nil, List.append_nil]
  rw [List.append_nil] at hsame
  exact hsame

theorem Holds.read_end (hvalid : config.validate = .ok ())
    (h : Holds config exchange side missing) :
    ∃ next, (exchange.pair.get side).read = (.ok missing.head?, next) ∧
      next.Ready config (exchange.written side).length ∧
      next.link.arrivals =
        missing.tail.map fun frame => .chunk (frame.wire config.protocol) := by
  cases missing with
  | nil =>
      obtain ⟨next, hread, hready, hlink⟩ := h.ready.read_of_nil h.queued
      exact ⟨next, hread, hready, by rw [hlink, h.queued]; rfl⟩
  | cons frame missing =>
      have hsize := h.fits frame List.mem_cons_self
      obtain ⟨next, hread, hready, hlink⟩ := h.ready.read_of_cons hvalid hsize h.queued
      exact ⟨next, hread, hready, by rw [hlink]; rfl⟩

theorem Holds.read (hvalid : config.validate = .ok ()) (h : Holds config exchange side missing) :
    (exchange.pair.read side).1 = .ok missing.head? ∧
      Holds config (exchange.move side .read) side missing.tail := by
  obtain ⟨next, hread, hready, hqueued⟩ := h.read_end hvalid
  have hanswer : exchange.pair.read side = (.ok missing.head?, exchange.pair.set side next) := by
    rw [Endpoint.Pair.read, hread]
  rw [move, hanswer]
  refine ⟨rfl, ?_⟩
  apply h.here
  · rw [Endpoint.Pair.get_set, Event.written_read, List.append_nil]
    exact hready
  · exact ⟨missing.head?, rfl⟩
  · cases missing <;> rfl
  · rw [Endpoint.Pair.get_set]
    exact hqueued

theorem Holds.read_other (h : Holds config exchange side.other missing) :
    Holds config (exchange.move side .read) side.other missing :=
  h.there_of_silent (Endpoint.Pair.get_set_other ..) rfl

theorem Holds.write_of_le (hvalid : config.validate = .ok ())
    (h : Holds config exchange side missing) {others : List Frame}
    (hother : Holds config exchange side.other others) (handle : Handle) (topic : UInt8)
    {payload : Bytes} (hsize : payload.length ≤ config.effectiveMaxPayload) :
    Holds config (exchange.move side (.write handle topic payload)) side missing ∧
      Holds config (exchange.move side (.write handle topic payload)) side.other
        (others ++ [⟨topic, UInt8.ofNat (exchange.written side).length, payload⟩]) := by
  obtain ⟨next, hwrite, hready, hlink⟩ := h.ready.write_of_le hvalid topic hsize
  rw [move, Endpoint.Pair.write_of_sent hwrite hlink]
  constructor
  · apply h.here
    · rw [Endpoint.Pair.get_other_set, Endpoint.Pair.get_set, Event.written, List.length_append]
      exact hready
    · rw [Event.Expected, if_pos hsize]
    · rfl
    · rw [Endpoint.Pair.get_other_set, Endpoint.Pair.get_set, hlink]
      exact h.queued
  · apply hother.there
    · rw [Endpoint.Pair.get_set]
      exact hother.ready.arrive _
    · exact numbered_concat ..
    · exact List.forall_mem_singleton.mpr hsize
    · rw [Endpoint.Pair.get_set]
      rfl

theorem Holds.write_of_lt (h : Holds config exchange side missing) {others : List Frame}
    (hother : Holds config exchange side.other others) (handle : Handle) (topic : UInt8)
    {payload : Bytes} (hlong : config.effectiveMaxPayload < payload.length) :
    Holds config (exchange.move side (.write handle topic payload)) side missing ∧
      Holds config (exchange.move side (.write handle topic payload)) side.other others := by
  obtain ⟨next, hwrite, hready, hlink⟩ := h.ready.write_of_lt topic hlong
  rw [move, Endpoint.Pair.write_of_unsent hwrite hlink]
  constructor
  · apply h.here
    · rw [Endpoint.Pair.get_set, Event.written_of_error, List.append_nil]
      exact hready
    · rw [Event.Expected, if_neg (Nat.not_le_of_lt hlong)]
    · rfl
    · rw [Endpoint.Pair.get_set, hlink]
      exact h.queued
  · exact hother.there_of_silent (Endpoint.Pair.get_set_other ..) rfl

theorem holds_start (hready : (pair.get side).Ready config 0)
    (hidle : (pair.get side).link.arrivals = []) : Holds config { pair } side [] :=
  ⟨hready, List.forall_mem_nil _, hidle, List.forall_mem_nil _, rfl⟩

def Kept (config : FrameConfig) (exchange : Exchange) : Prop :=
  ∀ side, ∃ missing, Holds config exchange side missing

theorem Kept.move (hvalid : config.validate = .ok ()) (h : exchange.Kept config) (side : Side)
    (move : Move) : (exchange.move side move).Kept config := by
  obtain ⟨missing, hhere⟩ := h side
  obtain ⟨others, hother⟩ := h side.other
  suffices hboth : (∃ rest, Holds config (exchange.move side move) side rest) ∧
      ∃ rest, Holds config (exchange.move side move) side.other rest by
    intro either
    rcases side.eq_or_other either with rfl | rfl
    · exact hboth.1
    · exact hboth.2
  cases move with
  | read => exact ⟨⟨_, (hhere.read hvalid).2⟩, ⟨_, hother.read_other⟩⟩
  | write handle topic payload =>
      rcases Nat.lt_or_ge config.effectiveMaxPayload payload.length with hlong | hsize
      · obtain ⟨hsame, hsameOther⟩ := hhere.write_of_lt hother handle topic hlong
        exact ⟨⟨_, hsame⟩, ⟨_, hsameOther⟩⟩
      · obtain ⟨hsame, hmore⟩ := hhere.write_of_le hvalid hother handle topic hsize
        exact ⟨⟨_, hsame⟩, ⟨_, hmore⟩⟩

theorem Kept.run (hvalid : config.validate = .ok ()) (h : exchange.Kept config)
    (moves : List (Side × Move)) : (exchange.run moves).Kept config := by
  induction moves generalizing exchange with
  | nil => exact h
  | cons entry moves ih => exact ih (h.move hvalid entry.1 entry.2)

/-- A read finds nothing, or a message of the other end. -/
theorem Kept.read_found (hvalid : config.validate = .ok ()) (h : exchange.Kept config)
    (side : Side) :
    ∃ found, (exchange.pair.read side).1 = .ok found ∧
      ∀ frame ∈ found, (frame.topic, frame.payload) ∈ exchange.written side.other := by
  obtain ⟨missing, hholds⟩ := h side
  refine ⟨missing.head?, (hholds.read hvalid).1, ?_⟩
  intro frame hframe
  apply mem_of_mem_numbered
  rw [← hholds.conserved]
  exact List.mem_append_right _ (List.mem_of_head? hframe)

theorem Kept.write_of_le (hvalid : config.validate = .ok ()) (h : exchange.Kept config)
    (side : Side) (topic : UInt8) {payload : Bytes}
    (hsize : payload.length ≤ config.effectiveMaxPayload) :
    (exchange.pair.write side topic payload).1 = .ok payload.length := by
  obtain ⟨missing, hholds⟩ := h side
  obtain ⟨next, hwrite, -, hlink⟩ := hholds.ready.write_of_le hvalid topic hsize
  rw [Endpoint.Pair.write_of_sent hwrite hlink]

/-- So many reads at one end take so many of the frames that are missing there. -/
theorem Holds.reads (hvalid : config.validate = .ok ()) (h : Holds config exchange side missing)
    (n : Nat) :
    Holds config (exchange.run (List.replicate n (side, .read))) side (missing.drop n) ∧
      (exchange.run (List.replicate n (side, .read))).written side.other =
        exchange.written side.other := by
  induction n generalizing exchange missing with
  | zero => exact ⟨h, rfl⟩
  | succ n ih =>
      obtain ⟨hholds, hwritten⟩ := ih (h.read hvalid).2
      rw [List.replicate_succ, run]
      refine ⟨?_, hwritten.trans written_after_other⟩
      rw [← List.drop_one, List.drop_drop, Nat.add_comm] at hholds
      exact hholds

end

theorem kept_create {config : FrameConfig} (hvalid : config.validate = .ok ())
    {leftLink rightLink : Link} (hleft : leftLink.Fresh config.ringCapacity)
    (hright : rightLink.Fresh config.ringCapacity) :
    ∃ pair, Endpoint.Pair.create leftLink rightLink config = .ok pair ∧
      Kept config { pair } := by
  obtain ⟨left, hcreateLeft, hreadyLeft, hlinkLeft⟩ := Endpoint.exists_create hvalid hleft.takes
  obtain ⟨right, hcreateRight, hreadyRight, hlinkRight⟩ :=
    Endpoint.exists_create hvalid hright.takes
  refine ⟨⟨left, right⟩, ?_, fun side => ⟨[], ?_⟩⟩
  · rw [Endpoint.Pair.create, hcreateLeft, hcreateRight]
    rfl
  · cases side with
    | left => exact holds_start hreadyLeft (by rw [Endpoint.Pair.get, hlinkLeft, hleft.idle])
    | right => exact holds_start hreadyRight (by rw [Endpoint.Pair.get, hlinkRight, hright.idle])

/-- Between two endpoints of one configuration no message is lost, doubled, reordered or altered,
whatever moves are made at both ends and whatever the topics and payloads are. A write fails just
for a payload over the limit, no read fails, the frames read at one end are the first of those
written at the other, numbered in the order of their writes, and the next read brings the next of
them. -/
theorem run_delivers {config : FrameConfig} (hvalid : config.validate = .ok ())
    {leftLink rightLink : Link} (hleft : leftLink.Fresh config.ringCapacity)
    (hright : rightLink.Fresh config.ringCapacity) :
    ∃ pair, Endpoint.Pair.create leftLink rightLink config = .ok pair ∧
      ∀ (moves : List (Side × Move)) (side : Side),
        let exchange := run { pair } moves
        (exchange.pair.get side).maxPayload = config.effectiveMaxPayload ∧
        (∀ event ∈ exchange.events side, event.Expected config) ∧
        exchange.frames side <+: numbered (exchange.written side.other) ∧
        (exchange.pair.read side).1 =
          .ok (numbered (exchange.written side.other))[(exchange.frames side).length]? ∧
        ∀ n, (exchange.pair.get side).link.arrivals.length ≤ n →
          (exchange.run (List.replicate n (side, .read))).frames side =
            numbered (exchange.written side.other) := by
  obtain ⟨pair, hcreate, hkept⟩ := kept_create hvalid hleft hright
  refine ⟨pair, hcreate, fun moves side => ?_⟩
  obtain ⟨missing, h⟩ := hkept.run hvalid moves side
  refine ⟨h.ready.maxPayload, h.expected, ⟨missing, h.conserved⟩, ?_, fun n hn => ?_⟩
  · rw [(h.read hvalid).1, ← h.conserved, List.getElem?_append_right (Nat.le_refl _), Nat.sub_self,
      List.head?_eq_getElem?]
  · rw [h.queued, List.length_map] at hn
    obtain ⟨hlast, hwritten⟩ := h.reads hvalid n
    rw [← hwritten, ← hlast.conserved, List.drop_of_length_le hn, List.append_nil]

/-- Two handles write at one end, a payload over the limit between two others, while the other end
writes and reads. -/
def interleaved : List (Side × Move) :=
  [(.left, .write .owner 0x3E [0x3E, 0x3E, 0x3E]), (.right, .read),
    (.left, .write (.clone 0) 0x3E [0, 0, 0, 0]), (.right, .write .owner 7 [1]),
    (.left, .write (.clone 0) 0 [])]

/-- From a stream to datagrams, with three octets as the limit. -/
theorem run_delivers_interleaved :
    ∃ pair, Endpoint.Pair.create .stream .datagram { ringCapacity := 12 } = .ok pair ∧
      ((run { pair } interleaved).run [(.right, .read)]).frames .right =
        [⟨0x3E, 0, [0x3E, 0x3E, 0x3E]⟩, ⟨0, 1, []⟩] := by
  have hvalid : FrameConfig.validate { ringCapacity := 12 } = .ok () := by decide
  have hstream : Link.stream.Fresh 12 := ⟨rfl, fun _ _ => rfl⟩
  have hdatagram : Link.datagram.Fresh 12 := ⟨rfl, fun _ _ => rfl⟩
  obtain ⟨pair, hcreate, hdelivers⟩ := run_delivers hvalid hstream hdatagram
  have hseen : (Endpoint.Pair.create .stream .datagram { ringCapacity := 12 }).map (fun pair =>
      (numbered ((run { pair } interleaved).written .left),
        ((run { pair } interleaved).pair.get .right).link.arrivals.length)) =
      .ok ([⟨0x3E, 0, [0x3E, 0x3E, 0x3E]⟩, ⟨0, 1, []⟩], 1) := by decide +kernel
  rw [hcreate] at hseen
  obtain ⟨hwritten, hqueued⟩ := Prod.mk.inj (Except.ok.inj hseen)
  obtain ⟨-, -, -, -, hall⟩ := hdelivers interleaved .right
  exact ⟨pair, hcreate, (hall 1 (Nat.le_of_eq hqueued)).trans hwritten⟩

end Exchange
end TopicBridge
