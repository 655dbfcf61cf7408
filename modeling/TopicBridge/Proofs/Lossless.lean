import TopicBridge.Proofs.Session

/-! Frames that are sent are received. A stream of encoded frames means those frames in order, and
looks follow that meaning wherever the stream is cut; on the marker octet's own topic they need
not, so there the marked protocol carries no frames. -/
namespace TopicBridge

/-- Within the payload limit and, behind a marker, not on the marker octet's topic. -/
structure Frame.Accepted (config : FrameConfig) (frame : Frame) : Prop where
  size : frame.payload.length ≤ config.effectiveMaxPayload
  topic : config.protocol = .px4 → frame.topic ≠ 0x3E

/-- The stream of some accepted frames and nothing else, with these frames as outcomes. -/
def Encoded (config : FrameConfig) (s : Bytes) (outcomes : List Outcome) : Prop :=
  ∃ frames : List Frame, (∀ frame ∈ frames, frame.Accepted config) ∧
    s = frames.flatMap (Frame.wire config.protocol) ∧ outcomes = frames.map .ok

section
variable {config : FrameConfig} {frame : Frame}

theorem Frame.Accepted.length_le (h : frame.Accepted config) :
    frame.payload.length ≤ FrameConfig.maxLength :=
  Nat.le_trans h.size config.effectiveMaxPayload_le_maxLength

theorem FrameConfig.look_nil (config : FrameConfig) : config.look [] = .waiting 0 :=
  Frame.look_nil

theorem FrameConfig.look_wire (h : frame.Accepted config) (following : Bytes) :
    config.look (frame.wire config.protocol ++ following) =
      .found frame (frame.wire config.protocol).length :=
  Frame.look_wire h.size h.length_le following

theorem FrameConfig.look_part (hvalid : config.validate = .ok ()) (h : frame.Accepted config)
    {part rest : Bytes} (hcut : frame.wire config.protocol = part ++ rest) (hrest : rest ≠ []) :
    config.look part = .waiting 0 := by
  refine Frame.look_partial h.size h.length_le hcut hrest
    (length_wire_le_ringCapacity hvalid h.size) ?_
  intro hmarked htopic
  exact absurd htopic (h.topic hmarked)

theorem look_encoded (hvalid : config.validate = .ok ()) {s t : Bytes} {outcomes : List Outcome}
    (h : Encoded config (s ++ t) outcomes) :
    ∃ later, outcomes = verdict (config.look s).result ++ later ∧
      Encoded config (s.drop (config.look s).consumed ++ t) later := by
  obtain ⟨frames, haccepted, hstream, rfl⟩ := h
  cases frames with
  | nil =>
      obtain ⟨rfl, rfl⟩ := List.append_eq_nil_iff.mp hstream
      rw [FrameConfig.look_nil]
      exact ⟨[], rfl, [], nofun, rfl, rfl⟩
  | cons frame frames =>
      have hfirst := haccepted frame List.mem_cons_self
      rw [List.flatMap_cons] at hstream
      rcases Nat.lt_or_ge s.length (frame.wire config.protocol).length with hpart | hwhole
      · obtain ⟨rest, hcut⟩ : s <+: frame.wire config.protocol :=
          List.prefix_of_prefix_length_le ⟨t, rfl⟩ ⟨_, hstream.symm⟩ (Nat.le_of_lt hpart)
        have hrest : rest ≠ [] := by
          rintro rfl
          rw [← hcut, List.append_nil] at hpart
          exact Nat.lt_irrefl _ hpart
        rw [FrameConfig.look_part hvalid hfirst hcut.symm hrest]
        refine ⟨_, rfl, frame :: frames, haccepted, ?_, rfl⟩
        rw [List.flatMap_cons]
        exact hstream
      · obtain ⟨more, rfl⟩ : frame.wire config.protocol <+: s :=
          List.prefix_of_prefix_length_le ⟨_, hstream.symm⟩ ⟨t, rfl⟩ hwhole
        rw [List.append_assoc] at hstream
        rw [FrameConfig.look_wire hfirst]
        have hfollowing := fun f hf => haccepted f (List.mem_cons_of_mem _ hf)
        refine ⟨frames.map .ok, rfl, frames, hfollowing, ?_, rfl⟩
        rw [Frame.Look.found, List.drop_left]
        exact List.append_cancel_left hstream

theorem follows_encoded (hvalid : config.validate = .ok ()) : Follows config (Encoded config) := by
  refine ⟨fun _ => look_encoded hvalid, ?_⟩
  rintro s outcomes - hnone ⟨frames, haccepted, rfl, rfl⟩
  cases frames with
  | nil => rfl
  | cons frame frames =>
      rw [List.flatMap_cons, FrameConfig.look_wire (haccepted frame List.mem_cons_self)] at hnone
      cases hnone

theorem Frame.mapM_encode {frames : List Frame} (h : ∀ frame ∈ frames, frame.Accepted config) :
    frames.mapM (Frame.encode config.protocol) = .ok (frames.map (Frame.wire config.protocol)) := by
  induction frames with
  | nil => rfl
  | cons frame frames ih =>
      have hencode : Frame.encode config.protocol frame = .ok (frame.wire config.protocol) :=
        Frame.encode_eq_ok_iff.mpr ⟨(h frame List.mem_cons_self).length_le, rfl⟩
      rw [List.mapM_cons, hencode, ih fun f hf => h f (List.mem_cons_of_mem _ hf)]
      rfl

theorem Stats.foldl_count (stats : Stats) (frames : List Frame) :
    (frames.map .ok).foldl Stats.count stats =
      { stats with
        frames := stats.frames + frames.length
        bytes := stats.bytes + (frames.flatMap Frame.payload).length } := by
  induction frames generalizing stats with
  | nil => rfl
  | cons frame frames ih =>
      rw [List.map_cons, List.foldl_cons, ih, count, Stats.frame]
      simp only [List.length_cons, List.flatMap_cons, List.length_append, Nat.add_assoc,
        Nat.add_comm 1 frames.length]

end

/-- Frames that are encoded one after the other come out of any number of reads in order and
unchanged, with nothing else but the link's own failures, and enough reads bring all of them. The
stream may be cut anywhere, also into datagrams that the queue cannot hold. -/
theorem Session.reads_deliver {config : FrameConfig} (hvalid : config.validate = .ok ())
    {frames : List Frame} (haccepted : ∀ frame ∈ frames, frame.Accepted config) :
    ∃ encodings reader, frames.mapM (Frame.encode config.protocol) = .ok encodings ∧
      Reader.create config = .ok reader ∧
      ∀ link : Link, link.Whole (max config.ringCapacity Link.maxDatagram) →
        link.octets = encodings.flatten → ∀ n,
        ∃ delivered missing, frames = delivered ++ missing ∧
          (reads { reader, link } n).outcomes = delivered.map .ok ∧
          (reads { reader, link } n).faults ++ (reads { reader, link } n).link.faults =
            link.faults ∧
          (reads { reader, link } n).reader.stats =
            { frames := delivered.length
              bytes := (delivered.flatMap Frame.payload).length
              dropped := 0
              overflows := 0 } ∧
          (frames.length + link.backlog ≤ n ∨ (reads { reader, link } n).Idle →
            missing = [] ∧ (reads { reader, link } n).link.octets = [] ∧
            (reads { reader, link } n).reader.buffered = 0) := by
  obtain ⟨reader, hcreate, -⟩ := exists_create hvalid
  refine ⟨_, reader, Frame.mapM_encode haccepted, hcreate, fun link hwhole hoctets n => ?_⟩
  rw [← List.flatMap_def] at hoctets
  have hmeaning : Encoded config link.octets (frames.map .ok) := ⟨frames, haccepted, hoctets, rfl⟩
  obtain ⟨later, hkeeps, hlater⟩ :=
    keeps_reads hvalid (follows_encoded hvalid) hcreate hwhole hmeaning n
  obtain ⟨missing, -, hstream, rfl⟩ := hkeeps.meaning
  obtain ⟨delivered, rest, rfl, hdelivered, hrest⟩ := List.append_eq_map_iff.mp hkeeps.said
  obtain rfl : rest = missing := (List.map_inj_right fun _ _ => Except.ok.inj).mp hrest
  refine ⟨delivered, rest, rfl, hdelivered.symm, hkeeps.faults, ?_, fun hend => ?_⟩
  · rw [hkeeps.stats, ← hdelivered, Stats.foldl_count]
    simp
  · rw [List.length_map] at hlater
    obtain rfl := List.map_eq_nil_iff.mp (hlater hend)
    obtain ⟨hwaiting, hoctets⟩ := List.append_eq_nil_iff.mp hstream
    exact ⟨rfl, hoctets, by rw [← Reader.length_waiting, hwaiting]; rfl⟩

/-- Silence, a part of a frame, a failure, and a datagram of the rest and of another frame. -/
def Link.burst : Link :=
  { Link.datagram with
    arrivals := [.chunk [], .chunk [0x3E, 0x3E, 0x3E, 7, 1], .fault .closed,
      .chunk [0, 3, 124, 240, 0x3E, 0x3E, 0x3E, 0x3E, 0x3E, 0x3E, 7, 2, 0, 0, 0, 0]] }

/-- The last datagram is larger than the queue. -/
theorem Session.reads_deliver_burst :
    ∃ reader, Reader.create { ringCapacity := 12 } = .ok reader ∧
      (reads { reader, link := .burst } 48).outcomes =
        [.ok ⟨7, 1, [0x3E, 0x3E, 0x3E]⟩, .ok ⟨7, 2, []⟩] ∧
      (reads { reader, link := .burst } 48).reader.buffered = 0 := by
  have hvalid : FrameConfig.validate { ringCapacity := 12 } = .ok () := by decide
  have haccepted : ∀ frame ∈ [⟨7, 1, [0x3E, 0x3E, 0x3E]⟩, ⟨7, 2, []⟩],
      Frame.Accepted { ringCapacity := 12 } frame :=
    List.forall_mem_cons.mpr ⟨⟨by decide, fun _ => by decide⟩,
      List.forall_mem_singleton.mpr ⟨by decide, fun _ => by decide⟩⟩
  obtain ⟨encodings, reader, hencode, hcreate, hdelivers⟩ := reads_deliver hvalid haccepted
  have hencodings : encodings = [[0x3E, 0x3E, 0x3E, 7, 1, 0, 3, 124, 240, 0x3E, 0x3E, 0x3E],
      [0x3E, 0x3E, 0x3E, 7, 2, 0, 0, 0, 0]] := by
    apply Except.ok.inj
    rw [← hencode]
    decide +kernel
  have hwhole : Link.burst.Whole (max 12 Link.maxDatagram) :=
    ⟨rfl, fun _ => by simp [Link.burst, Link.maxDatagram]⟩
  have hoctets : Link.burst.octets = encodings.flatten := by
    rw [hencodings]
    rfl
  obtain ⟨delivered, missing, hframes, houtcomes, -, -, hend⟩ := hdelivers _ hwhole hoctets 48
  obtain ⟨rfl, -, hbuffered⟩ := hend (.inl (by decide))
  rw [List.append_nil] at hframes
  refine ⟨reader, hcreate, ?_, hbuffered⟩
  rw [houtcomes, ← hframes]
  rfl

end TopicBridge
