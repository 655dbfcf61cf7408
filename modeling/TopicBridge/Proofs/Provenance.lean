import TopicBridge.Proofs.Session

/-! Where frames come from. A frame is delivered only where its octets stand in the queue, with
nothing but octets that are given up in front of it, so that the frames of a whole run stand in the
received stream one behind the other. -/
namespace TopicBridge

def frames : Except FrameError (Option Frame) → List Frame
  | .ok (some frame) => [frame]
  | _ => []

namespace Frame

/-- The octets that stand for a frame: those that the encoder writes behind a marker, or a record
without zeros that unstuffs to header and payload, and the zero that ends it. -/
inductive StandsFor : Protocol → Bytes → Frame → Prop
  | marked {octets : Bytes} {frame : Frame} : encode .px4 frame = .ok octets →
      StandsFor .px4 octets frame
  | delimited {stuffed : Bytes} {frame : Frame} : 0 ∉ stuffed →
      Cobs.unstuff stuffed = some frame.record → frame.payload.length ≤ FrameConfig.maxLength →
      StandsFor .cobs (stuffed ++ [0]) frame

/-- Frames one behind the other, with anything in front of, between and behind them. -/
inductive Carries (protocol : Protocol) : Bytes → List Frame → Prop
  | nil (rest : Bytes) : Carries protocol rest []
  | cons (gap : Bytes) {octets rest : Bytes} {frame : Frame} {frames : List Frame} :
      StandsFor protocol octets frame → Carries protocol rest frames →
      Carries protocol (gap ++ octets ++ rest) (frame :: frames)

section
variable {protocol : Protocol} {capacity maxPayload : Nat} {s t : Bytes} {frame : Frame}
  {earlier later : List Frame}

theorem Carries.prepend (gap : Bytes) (h : Carries protocol s later) :
    Carries protocol (gap ++ s) later := by
  cases h with
  | nil => exact .nil _
  | cons inner hstands hrest =>
      rw [← List.append_assoc, ← List.append_assoc]
      exact .cons _ hstands hrest

theorem Carries.append (hs : Carries protocol s earlier) (ht : Carries protocol t later) :
    Carries protocol (s ++ t) (earlier ++ later) := by
  induction hs with
  | nil rest => exact ht.prepend rest
  | cons gap hstands _ ih =>
      rw [List.append_assoc]
      exact .cons gap hstands ih

theorem lookMarked_sound (h : (lookMarked maxPayload s).result = .ok (some frame)) :
    frame.payload.length ≤ maxPayload ∧ ∃ noise octets, StandsFor .px4 octets frame ∧
      s = noise ++ octets ++ s.drop (lookMarked maxPayload s).consumed := by
  have hlook := looksAt_lookMarked maxPayload s
  generalize lookMarked maxPayload s = look at h hlook
  cases hlook with
  | nowhere => cases h
  | waiting => cases h
  | failed => cases h
  | @found skipped other hmarker hfound =>
      obtain rfl : other = frame := Option.some.inj (Except.ok.inj h)
      obtain ⟨hsize, octets, hencode, rest, hrest⟩ := opens_of_marked hmarker hfound
      refine ⟨hsize, s.take skipped, octets, .marked hencode, ?_⟩
      obtain ⟨-, rfl⟩ := encode_eq_ok_iff.mp hencode
      rw [Look.found, markedLength_eq, ← List.drop_drop, ← hrest, List.drop_left,
        List.append_assoc, hrest, List.take_append_drop]

theorem ofStuffed_sound {stuffed : Bytes} (h : ofStuffed maxPayload stuffed = .ok frame) :
    Cobs.unstuff stuffed = some frame.record ∧ frame.payload.length ≤ maxPayload ∧
      frame.payload.length ≤ FrameConfig.maxLength := by
  unfold ofStuffed at h
  split at h
  · cases h
  next data hdata =>
  unfold ofRecord at h
  split at h
  · next topic seq lengthHigh lengthLow checkHigh checkLow payload =>
      dsimp only at h
      split at h
      · cases h
      next hlength =>
      split at h
      · cases h
      next hlimit =>
      obtain ⟨rfl, hcheck⟩ := checked_eq_ok_iff.mp h
      have hword := (Bytes.toUInt16 lengthHigh lengthLow).toNat_lt
      have hmax : FrameConfig.maxLength = 65535 := rfl
      have hpayload := Decidable.not_not.mp hlength
      refine ⟨?_, by dsimp only; omega, by dsimp only; omega⟩
      rw [hdata, record_of_fields hpayload hcheck]
  · cases h

theorem looksPast_sound {look : Look} (h : LooksPast capacity maxPayload s look)
    (hfound : look.result = .ok (some frame)) :
    frame.payload.length ≤ maxPayload ∧ ∃ zeros octets, (∀ b ∈ zeros, b = 0) ∧
      StandsFor .cobs octets frame ∧ s = zeros ++ octets ++ s.drop look.consumed := by
  induction h with
  | nothing => cases hfound
  | full => cases hfound
  | going => cases hfound
  | @emptied rest look _ ih =>
      obtain ⟨hsize, zeros, octets, hzeros, hstands, hrest⟩ := ih hfound
      refine ⟨hsize, 0 :: zeros, octets, List.forall_mem_cons.mpr ⟨rfl, hzeros⟩, hstands, ?_⟩
      rw [Look.after, Nat.add_comm, List.drop_succ_cons, List.cons_append, List.cons_append,
        ← hrest]
  | @ended stuffed _ hclean rest =>
      obtain ⟨hrecord, hsize, hfield⟩ := ofStuffed_sound (eq_ok_of_map_some hfound)
      have hstands : StandsFor .cobs (stuffed ++ [0]) frame := .delimited hclean hrecord hfield
      refine ⟨hsize, [], stuffed ++ [0], List.forall_mem_nil _, hstands, ?_⟩
      have hlength : (stuffed ++ [0]).length = stuffed.length + 1 := List.length_append
      rw [List.nil_append, List.append_cons, ← hlength, List.drop_left]

/-- A frame is delivered where its octets stand. In front of a delimited one only empty records are
given up. -/
theorem decode_sound {ring : Ring} (h : (decode protocol maxPayload ring).1 = .ok (some frame)) :
    frame.payload.length ≤ maxPayload ∧ ∃ gap octets, StandsFor protocol octets frame ∧
      ring.toList = gap ++ octets ++ (decode protocol maxPayload ring).2.toList ∧
      (protocol = .cobs → ∀ b ∈ gap, b = 0) := by
  rw [decode_fst] at h
  rw [toList_decode]
  cases protocol with
  | px4 =>
      obtain ⟨hsize, noise, octets, hstands, hring⟩ := lookMarked_sound h
      exact ⟨hsize, noise, octets, hstands, hring, nofun⟩
  | cobs =>
      obtain ⟨hsize, zeros, octets, hzeros, hstands, hring⟩ :=
        looksPast_sound (looksPast_lookDelimited _ _ _) h
      exact ⟨hsize, zeros, octets, hstands, hring, fun _ => hzeros⟩

theorem carries_decode (protocol : Protocol) (maxPayload : Nat) (ring : Ring) :
    ∃ used, ring.toList = used ++ (decode protocol maxPayload ring).2.toList ∧
      Carries protocol used (frames (decode protocol maxPayload ring).1) := by
  by_cases hsome : ∃ frame, (decode protocol maxPayload ring).1 = .ok (some frame)
  · obtain ⟨frame, hframe⟩ := hsome
    obtain ⟨-, gap, octets, hstands, hring, -⟩ := decode_sound hframe
    refine ⟨gap ++ octets, hring, ?_⟩
    rw [hframe, ← List.append_nil (gap ++ octets)]
    exact .cons gap hstands (.nil [])
  · have hnone : frames (decode protocol maxPayload ring).1 = [] := by
      unfold frames
      split
      · next frame hframe => exact absurd ⟨frame, hframe⟩ hsome
      · rfl
    rw [hnone, toList_decode]
    exact ⟨_, (List.take_append_drop _ _).symm, .nil _⟩

end
end Frame

namespace Reader

/-- From `before` to `after` the octets of the frames in the result were used up, in order, with
others around them. -/
structure Uses (before : Reader) (result : Except FrameError (Option Frame)) (after : Reader) :
    Prop where
  config : after.config = before.config
  stream : ∃ used, before.waiting = used ++ after.waiting ∧
    Frame.Carries before.config.protocol used (frames result)

theorem uses_assemble (reader : Reader) : Uses reader reader.assemble.1 reader.assemble.2 := by
  obtain ⟨used, hring, hcarries⟩ :=
    Frame.carries_decode reader.config.protocol reader.maxPayload reader.ring
  refine ⟨config_assemble reader, used, ?_, hcarries⟩
  rw [waiting, waiting, ring_assemble, pending_assemble, hring, List.append_assoc]

theorem uses_overflowed (reader : Reader) :
    Uses reader (.error reader.overflowed.1) reader.overflowed.2 :=
  ⟨rfl, reader.ring.toList, rfl, .nil _⟩

theorem Uses.trans {before middle after : Reader} {result : Except FrameError (Option Frame)}
    (hfirst : Uses before (.ok none) middle) (hsecond : Uses middle result after) :
    Uses before result after := by
  obtain ⟨used, hused, -⟩ := hfirst.stream
  obtain ⟨more, hmore, hcarries⟩ := hsecond.stream
  refine ⟨hsecond.config.trans hfirst.config, used ++ more, ?_, ?_⟩
  · rw [hused, hmore, List.append_assoc]
  · rw [hfirst.config] at hcarries
    exact hcarries.prepend used

theorem Feeds.uses {before after : Reader} (h : Feeds before after) :
    Uses before (.ok none) after :=
  ⟨h.config, [], h.waiting.symm, .nil _⟩

theorem Drains.uses {reader after : Reader} {result : Except FrameError (Option Frame)}
    (h : Drains reader result after) : Uses reader result after := by
  induction h with
  | looked => exact uses_assemble _
  | @full reader hnone _ _ =>
      have hassemble := reader.uses_assemble
      rw [hnone] at hassemble
      exact hassemble.trans (uses_overflowed _)
  | @fed reader fed after result hnone _ _ hfeeds _ ih =>
      have hassemble := reader.uses_assemble
      rw [hnone] at hassemble
      exact (hassemble.trans hfeeds.uses).trans ih

theorem room_of_config {reader other : Reader} (h : other.config = reader.config)
    (kind : LinkKind) : other.room kind = reader.room kind := by
  cases kind <;> simp only [room, h]

/-- The octets received and not used up, and behind them those still to be received. -/
def upcoming (reader : Reader) (link : Link) : Bytes :=
  reader.waiting ++ link.reachable (reader.room link.kind)

/-- A piece of what is upcoming was used up, and it carries the frames in the result. -/
structure Advances (before : Reader) (link : Link) (result : Except FrameError (Option Frame))
    (after : Reader) (next : Link) : Prop where
  config : after.config = before.config
  kind : next.kind = link.kind
  stream : ∃ used, before.upcoming link = used ++ after.upcoming next ∧
    Frame.Carries before.config.protocol used (frames result)

section
variable {before after : Reader} {result : Except FrameError (Option Frame)} {link next : Link}

theorem Uses.advances (h : Uses before result after) (hkind : next.kind = link.kind)
    (hreach : link.reachable (before.room link.kind) = next.reachable (before.room link.kind)) :
    Advances before link result after next := by
  obtain ⟨used, hused, hcarries⟩ := h.stream
  refine ⟨h.config, hkind, used, ?_, hcarries⟩
  rw [upcoming, upcoming, hused, room_of_config h.config, hkind, hreach, List.append_assoc]

theorem Uses.advances_octets {middle : Reader} {data : Bytes} (h : Uses before (.ok none) middle)
    (hpending : middle.pending = []) (hfed : Uses (middle.holding data) result after)
    (hkind : next.kind = link.kind) (hreach : link.reachable (before.room link.kind) =
      data ++ next.reachable (before.room link.kind)) :
    Advances before link result after next := by
  obtain ⟨used, hused, -⟩ := h.stream
  obtain ⟨more, hmore, hcarries⟩ := hfed.stream
  have hconfig : after.config = before.config := hfed.config.trans h.config
  rw [show (middle.holding data).config = middle.config from rfl, h.config] at hcarries
  refine ⟨hconfig, hkind, used ++ more, ?_, hcarries.prepend used⟩
  rw [upcoming, upcoming, room_of_config hconfig, hkind, hused, hreach, List.append_assoc,
    ← List.append_assoc middle.waiting, ← waiting_holding hpending, hmore]
  simp only [List.append_assoc]

theorem advances_readFrame (reader : Reader) (link : Link) :
    Advances reader link (reader.readFrame link).1 (reader.readFrame link).2.1
      (reader.readFrame link).2.2 := by
  have huses := reader.drains_drain.uses
  have hkind := link.kind_receive (reader.drain.2.room link.kind)
  have hreach := link.reachable_receive (reader.drain.2.room link.kind)
  have hattempts := reader.attempts_readFrame link
  generalize reader.readFrame link = answer at hattempts ⊢
  cases hattempts with
  | drained => exact huses.advances rfl rfl
  | failed hnone hreceive =>
      rw [hreceive, room_of_config huses.config] at hreach
      rw [hreceive] at hkind
      rw [hnone] at huses
      exact ⟨huses.config, hkind, (huses.advances hkind hreach).stream⟩
  | silent hnone hreceive =>
      rw [hreceive, room_of_config huses.config] at hreach
      rw [hreceive] at hkind
      rw [hnone] at huses
      exact huses.advances hkind hreach
  | received hnone _ hreceive =>
      have hpending := reader.drains_drain.pending_eq_nil hnone
      rw [hreceive, room_of_config huses.config] at hreach
      rw [hreceive] at hkind
      rw [hnone] at huses
      exact huses.advances_octets hpending (drains_drain _).uses hkind hreach

end
end Reader

namespace Session

def frames (session : Session) : List Frame := session.results.flatMap TopicBridge.frames

/-- Since `start` some of what was upcoming was used up, and it carries the frames read. -/
structure Origin (start session : Session) : Prop where
  config : session.reader.config = start.reader.config
  kind : session.link.kind = start.link.kind
  stream : ∃ used, start.reader.upcoming start.link =
      used ++ session.reader.upcoming session.link ∧
    Frame.Carries start.reader.config.protocol used session.frames

theorem origin_start (reader : Reader) (link : Link) :
    Origin { reader, link } { reader, link } :=
  ⟨rfl, rfl, [], rfl, .nil _⟩

theorem Origin.read {start session : Session} (h : Origin start session) :
    Origin start session.read := by
  have hadvances := session.reader.advances_readFrame session.link
  obtain ⟨used, hstream, hcarries⟩ := h.stream
  obtain ⟨more, hmore, hframes⟩ := hadvances.stream
  refine ⟨hadvances.config.trans h.config, hadvances.kind.trans h.kind, used ++ more, ?_, ?_⟩
  · rw [hstream, hmore, List.append_assoc]
    rfl
  · rw [h.config] at hframes
    rw [frames, Session.read, List.flatMap_append, List.flatMap_singleton]
    exact hcarries.append hframes

theorem Origin.reads {start session : Session} (h : Origin start session) (n : Nat) :
    Origin start (session.reads n) := by
  induction n with
  | zero => exact h
  | succ n ih => exact ih.read

theorem Origin.room {start session : Session} (h : Origin start session) :
    session.reader.room session.link.kind = start.reader.room start.link.kind := by
  rw [Reader.room_of_config h.config, h.kind]

end Session

theorem validate_of_create {config : FrameConfig} {reader : Reader}
    (hcreate : Reader.create config = .ok reader) : config.validate = .ok () := by
  cases hvalid : config.validate with
  | ok => rfl
  | error cause =>
      rw [Reader.create, hvalid] at hcreate
      cases hcreate

/-- No frame is invented. A frame comes out of a queue only where its octets stand there, within the
limit, and behind nothing but zeros if they are delimited; and the frames of any run of reads, on
any link, stand in what was received, disjoint and in order. -/
theorem frames_stand_in_stream :
    (∀ maxPayload (ring : Ring) frame,
      (Frame.decode .px4 maxPayload ring).1 = .ok (some frame) →
        frame.payload.length ≤ maxPayload ∧ ∃ noise octets, Frame.encode .px4 frame = .ok octets ∧
          ring.toList = noise ++ octets ++ (Frame.decode .px4 maxPayload ring).2.toList) ∧
    (∀ maxPayload (ring : Ring) frame,
      (Frame.decode .cobs maxPayload ring).1 = .ok (some frame) →
        frame.payload.length ≤ maxPayload ∧ frame.payload.length ≤ FrameConfig.maxLength ∧
        ∃ zeros stuffed, (∀ b ∈ zeros, b = 0) ∧ 0 ∉ stuffed ∧
          Cobs.unstuff stuffed = some frame.record ∧
          ring.toList = zeros ++ stuffed ++ [0] ++
            (Frame.decode .cobs maxPayload ring).2.toList) ∧
    ∀ config reader, Reader.create config = .ok reader → ∀ (link : Link) n,
      ∃ used received,
        received = used ++ (Session.reads { reader, link } n).reader.waiting ∧
        link.reachable (reader.room link.kind) = received ++
          (Session.reads { reader, link } n).link.reachable (reader.room link.kind) ∧
        Frame.Carries config.protocol used (Session.reads { reader, link } n).frames := by
  refine ⟨fun maxPayload ring frame hframe => ?_, fun maxPayload ring frame hframe => ?_,
    fun config reader hcreate link n => ?_⟩
  · obtain ⟨hsize, noise, octets, hstands, hring, -⟩ := Frame.decode_sound hframe
    cases hstands with
    | marked hencode => exact ⟨hsize, noise, octets, hencode, hring⟩
  · obtain ⟨hsize, zeros, octets, hstands, hring, hzeros⟩ := Frame.decode_sound hframe
    cases hstands with
    | @delimited stuffed _ hclean hrecord hfield =>
        rw [← List.append_assoc] at hring
        exact ⟨hsize, hfield, zeros, stuffed, hzeros rfl, hclean, hrecord, hring⟩
  · obtain ⟨fresh, hfresh, hsound, hwaiting, -⟩ :=
      Session.exists_create (validate_of_create hcreate)
    obtain rfl : fresh = reader := Except.ok.inj (hfresh.symm.trans hcreate)
    have horigin := (Session.origin_start fresh link).reads n
    obtain ⟨used, hstream, hcarries⟩ := horigin.stream
    rw [Reader.upcoming, Reader.upcoming, horigin.room, hwaiting, ← List.append_assoc] at hstream
    rw [hsound.configured] at hcarries
    exact ⟨used, _, rfl, hstream, hcarries⟩

/-- A frame between two stray octets, in a queue that wraps. -/
def Ring.straying : Ring :=
  ⟨#[0x3E, 0x3E, 7, 2, 0, 0, 0, 0, 9, 5, 1, 0x3E], 10, 11, by decide, by decide⟩

/-- The same frame delimited, behind an empty record and before a stray octet. -/
def Ring.delimiting : Ring :=
  ⟨#[0, 3, 7, 2, 1, 1, 1, 1, 0, 9], 0, 10, by decide, by decide⟩

/-- The frame comes in two chunks, and a stray octet before it. -/
def Link.straying : Link :=
  { Link.stream with arrivals := [.chunk [1, 0x3E, 0x3E, 0x3E, 7], .chunk [2, 0, 0, 0, 0]] }

theorem frames_stand_in_stream_straying :
    (∃ noise octets, Frame.encode .px4 ⟨7, 2, []⟩ = .ok octets ∧
      Ring.straying.toList = noise ++ octets ++ [9]) ∧
    (∃ zeros stuffed, (∀ b ∈ zeros, b = 0) ∧ 0 ∉ stuffed ∧
      Cobs.unstuff stuffed = some (Frame.record ⟨7, 2, []⟩) ∧
      Ring.delimiting.toList = zeros ++ stuffed ++ [0] ++ [9]) ∧
    ∃ used received rest, used <+: received ∧
      received ++ rest = [1, 0x3E, 0x3E, 0x3E, 7, 2, 0, 0, 0, 0] ∧
      Frame.Carries .px4 used [⟨7, 2, []⟩] := by
  obtain ⟨hmarked, hdelimited, hrun⟩ := frames_stand_in_stream
  refine ⟨?_, ?_, ?_⟩
  · have hfound : (Frame.decode .px4 64 .straying).1 = .ok (some ⟨7, 2, []⟩) := by decide +kernel
    have hleft : (Frame.decode .px4 64 .straying).2.toList = [9] := by decide +kernel
    obtain ⟨-, noise, octets, hencode, hring⟩ := hmarked _ _ _ hfound
    rw [hleft] at hring
    exact ⟨noise, octets, hencode, hring⟩
  · have hfound : (Frame.decode .cobs 64 .delimiting).1 = .ok (some ⟨7, 2, []⟩) := by
      decide +kernel
    have hleft : (Frame.decode .cobs 64 .delimiting).2.toList = [9] := by decide +kernel
    obtain ⟨-, -, zeros, stuffed, hzeros, hclean, hrecord, hring⟩ := hdelimited _ _ _ hfound
    rw [hleft] at hring
    exact ⟨zeros, stuffed, hzeros, hclean, hrecord, hring⟩
  · have hvalid : FrameConfig.validate { ringCapacity := 12 } = .ok () := by decide
    obtain ⟨reader, hcreate, -⟩ := Session.exists_create hvalid
    have hframes : (Reader.create { ringCapacity := 12 }).map (fun reader =>
        (Session.reads { reader, link := .straying } 2).frames) = .ok [⟨7, 2, []⟩] := by
      decide +kernel
    rw [hcreate] at hframes
    have hread : (Session.reads { reader, link := .straying } 2).frames = [⟨7, 2, []⟩] :=
      Except.ok.inj hframes
    obtain ⟨used, received, hused, hstream, hcarries⟩ := hrun _ reader hcreate .straying 2
    rw [hread] at hcarries
    exact ⟨used, received, _, ⟨_, hused.symm⟩, hstream.symm, hcarries⟩

end TopicBridge
