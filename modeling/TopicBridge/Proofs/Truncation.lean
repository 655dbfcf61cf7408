import TopicBridge.Proofs.Delimited
import TopicBridge.Proofs.Marked
import TopicBridge.Proofs.Queue

/-! A frame that arrives in two parts, in either protocol. The whole is taken at once and leaves
what follows it. A part is waited for, unless the frame is on the marker octet's own topic and
the last three of its marker run already open another whole frame. -/
namespace TopicBridge.Frame

section
variable {protocol : Protocol} {capacity maxPayload : Nat} {frame : Frame}

theorem look_wire (hsize : frame.payload.length ≤ maxPayload)
    (hfield : frame.payload.length ≤ FrameConfig.maxLength) (following : Bytes) :
    look protocol capacity maxPayload (frame.wire protocol ++ following) =
      .found frame (frame.wire protocol).length := by
  cases protocol with
  | px4 => exact lookMarked_wire hsize hfield following
  | cobs => exact lookDelimited_wire hsize hfield following

theorem look_wire_alone (hsize : frame.payload.length ≤ maxPayload)
    (hfield : frame.payload.length ≤ FrameConfig.maxLength) :
    look protocol capacity maxPayload (frame.wire protocol) =
      .found frame (frame.wire protocol).length := by
  have hlook : look protocol capacity maxPayload (frame.wire protocol ++ []) =
      .found frame (frame.wire protocol).length := look_wire hsize hfield []
  rw [List.append_nil] at hlook
  exact hlook

theorem look_nil : look protocol capacity maxPayload [] = .waiting 0 := by
  cases protocol with
  | px4 => exact lookMarked_short (Nat.succ_pos 2)
  | cobs => rfl

theorem marker_prefix_part {part rest : Bytes} (hcut : frame.wire .px4 = part ++ rest)
    (hlong : 3 ≤ part.length) : marker <+: part :=
  List.prefix_of_prefix_length_le (List.prefix_append _ _) ⟨rest, hcut.symm⟩ hlong

/-- The last three of more than three marker octets at the head open a whole frame. -/
def Premature (maxPayload : Nat) (other : Frame) (part : Bytes) : Prop :=
  3 < markerRun part ∧ Opens maxPayload other (part.drop (markerRun part - 3))

/-- Only the marker octet's topic can make the run longer. -/
theorem topic_of_markerRun {part rest : Bytes} (hcut : frame.wire .px4 = part ++ rest)
    (hrun : 3 < markerRun part) : frame.topic = 0x3E := by
  by_contra htopic
  have hwhole := markerRun_wire htopic []
  have hle := markerRun_prefix ⟨rest, hcut.symm⟩
  rw [List.append_nil] at hwhole
  omega

theorem lookMarked_partial {part rest : Bytes} (hsize : frame.payload.length ≤ maxPayload)
    (hfield : frame.payload.length ≤ FrameConfig.maxLength)
    (hcut : frame.wire .px4 = part ++ rest) (hrest : rest ≠ [])
    (halone : frame.topic = 0x3E → ∀ other, ¬ Premature maxPayload other part) :
    lookMarked maxPayload part = .waiting 0 := by
  rcases Nat.lt_or_ge part.length 3 with hshort | hlong
  · exact lookMarked_short hshort
  · refine lookMarked_of_waiting (marker_prefix_part hcut hlong)
      (marked_partial hsize hfield hcut hrest) ?_
    intro other hrun hother
    have hopens := opens_of_marked (marker_prefix_drop_markerRun (Nat.le_of_lt hrun)) hother
    exact halone (topic_of_markerRun hcut hrun) other ⟨hrun, hopens⟩

theorem look_partial {part rest : Bytes} (hsize : frame.payload.length ≤ maxPayload)
    (hfield : frame.payload.length ≤ FrameConfig.maxLength)
    (hcut : frame.wire protocol = part ++ rest) (hrest : rest ≠ [])
    (hfits : (frame.wire protocol).length ≤ capacity)
    (halone : protocol = .px4 → frame.topic = 0x3E → ∀ other, ¬ Premature maxPayload other part) :
    look protocol capacity maxPayload part = .waiting 0 := by
  cases protocol with
  | px4 => exact lookMarked_partial hsize hfield hcut hrest (halone rfl)
  | cobs => exact lookDelimited_partial hcut hrest hfits

/-- A frame that stands at the last marker of a run is taken while the first one waits. -/
theorem lookMarked_premature {part rest : Bytes} (hsize : frame.payload.length ≤ maxPayload)
    (hfield : frame.payload.length ≤ FrameConfig.maxLength)
    (hcut : frame.wire .px4 = part ++ rest) (hrest : rest ≠ [])
    {other : Frame} (hother : Premature maxPayload other part) :
    lookMarked maxPayload part = .found other (markerRun part - 3 + other.markedLength) := by
  obtain ⟨hrun, hopens⟩ := hother
  have hlong : 3 ≤ part.length := Nat.le_trans (Nat.le_of_lt hrun) (markerRun_le part)
  have hlast := marker_prefix_drop_markerRun (Nat.le_of_lt hrun)
  exact lookMarked_of_found_last (marker_prefix_part hcut hlong) hrun
    (marked_partial hsize hfield hcut hrest) ((marked_eq_some_iff hlast).mpr hopens)

end

theorem decode_fst (protocol : Protocol) (maxPayload : Nat) (ring : Ring) :
    (decode protocol maxPayload ring).1 =
      (look protocol ring.capacity maxPayload ring.toList).result := rfl

theorem toList_decode (protocol : Protocol) (maxPayload : Nat) (ring : Ring) :
    (decode protocol maxPayload ring).2.toList =
      ring.toList.drop (look protocol ring.capacity maxPayload ring.toList).consumed :=
  Ring.toList_skip _ _

@[simp] theorem capacity_decode (protocol : Protocol) (maxPayload : Nat) (ring : Ring) :
    (decode protocol maxPayload ring).2.capacity = ring.capacity := rfl

theorem decode_wire {protocol : Protocol} {maxPayload : Nat} {frame : Frame} {ring : Ring}
    (hsize : frame.payload.length ≤ maxPayload)
    (hfield : frame.payload.length ≤ FrameConfig.maxLength) {following : Bytes}
    (hring : ring.toList = frame.wire protocol ++ following) :
    (decode protocol maxPayload ring).1 = .ok (some frame) ∧
      (decode protocol maxPayload ring).2.toList = following := by
  rw [decode_fst, toList_decode, hring, look_wire hsize hfield]
  exact ⟨rfl, List.drop_left⟩

theorem decode_waiting {protocol : Protocol} {maxPayload : Nat} {ring : Ring}
    (h : look protocol ring.capacity maxPayload ring.toList = .waiting 0) :
    (decode protocol maxPayload ring).1 = .ok none ∧
      (decode protocol maxPayload ring).2.toList = ring.toList := by
  rw [decode_fst, toList_decode, h]
  exact ⟨rfl, List.drop_zero⟩

/-- A part of a frame stays in the queue until the rest has come, and then the frame is delivered
whole. The one exception is a frame on the marker octet's topic whose marker run, read from its
last three octets, opens another whole frame: that one is delivered first. -/
theorem decode_truncated {protocol : Protocol} {maxPayload : Nat} {frame : Frame}
    {octets part rest : Bytes} {ring : Ring} (hsize : frame.payload.length ≤ maxPayload)
    (hencode : encode protocol frame = .ok octets) (hcut : octets = part ++ rest)
    (hrest : rest ≠ []) (hfits : octets.length ≤ ring.capacity) (hring : ring.toList = part) :
    ((protocol = .px4 → frame.topic = 0x3E → ∀ other, ¬ Premature maxPayload other part) →
      (decode protocol maxPayload ring).1 = .ok none ∧
      (decode protocol maxPayload ring).2.toList = part ∧
      ∃ filled, (decode protocol maxPayload ring).2.push rest = .ok filled ∧
        (decode protocol maxPayload filled).1 = .ok (some frame) ∧
        (decode protocol maxPayload filled).2.toList = []) ∧
    (protocol = .px4 → ∀ other, Premature maxPayload other part →
      (decode protocol maxPayload ring).1 = .ok (some other) ∧
      (decode protocol maxPayload ring).2.toList =
        part.drop (markerRun part - 3 + (other.wire .px4).length)) := by
  obtain ⟨hfield, rfl⟩ := encode_eq_ok_iff.mp hencode
  constructor
  · intro halone
    have hlook := look_partial hsize hfield hcut hrest hfits halone
    rw [← hring] at hlook
    have hwaiting := decode_waiting hlook
    rw [hring] at hwaiting
    refine ⟨hwaiting.1, hwaiting.2, ?_⟩
    have hroom := (decode protocol maxPayload ring).2.length_add_free
    have hlength := congrArg List.length hwaiting.2
    have hwhole := congrArg List.length hcut
    rw [Ring.length_toList] at hlength
    rw [List.length_append] at hwhole
    rw [capacity_decode] at hroom
    obtain ⟨filled, hpush, hlist, -⟩ :=
      (decode protocol maxPayload ring).2.push_fits rest (by omega)
    rw [hwaiting.2, ← hcut, ← List.append_nil (frame.wire protocol)] at hlist
    exact ⟨filled, hpush, decode_wire hsize hfield hlist⟩
  · rintro rfl other hother
    have hlook := lookMarked_premature hsize hfield hcut hrest hother
    rw [markedLength_eq] at hlook
    rw [decode_fst, toList_decode, hring, look, hlook]
    exact ⟨rfl, rfl⟩

/-- Cut behind its length field the frame waits; one octet short of its end, another is read out
of its middle. The queue has wrapped. -/
theorem decode_truncated_marker_topic :
    (∃ ring : Ring, ring.toList = [0x3E, 0x3E, 0x3E, 0x3E, 0x3E, 0, 3] ∧
      (decode .px4 64 ring).1 = .ok none) ∧
    ∃ ring : Ring, ring.toList = [0x3E, 0x3E, 0x3E, 0x3E, 0x3E, 0, 3, 0, 0, 0, 0] ∧
      (decode .px4 64 ring).1 = .ok (some ⟨0, 3, []⟩) ∧ (decode .px4 64 ring).2.toList = [] := by
  have hencode : encode .px4 ⟨0x3E, 0x3E, [0, 0, 0]⟩ =
      .ok [0x3E, 0x3E, 0x3E, 0x3E, 0x3E, 0, 3, 0, 0, 0, 0, 0] := by decide +kernel
  constructor
  · have hcut : ([0x3E, 0x3E, 0x3E, 0x3E, 0x3E, 0, 3, 0, 0, 0, 0, 0] : Bytes) =
        [0x3E, 0x3E, 0x3E, 0x3E, 0x3E, 0, 3] ++ [0, 0, 0, 0, 0] := rfl
    refine ⟨⟨#[3, 0, 0, 0, 0, 0, 0x3E, 0x3E, 0x3E, 0x3E, 0x3E, 0], 6, 7, by decide, by decide⟩,
      by decide, ?_⟩
    refine ((decode_truncated (by decide) hencode hcut (by decide) (by decide) (by decide)).1 ?_).1
    rintro - - other ⟨-, -, octets, hopens, hprefix⟩
    have hlength := hprefix.length_le
    rw [(encode_eq_ok_iff.mp hopens).2, length_wire_px4] at hlength
    simp only [markerRun, List.length_drop, List.length_cons, List.length_nil] at hlength
    omega
  · have hcut : ([0x3E, 0x3E, 0x3E, 0x3E, 0x3E, 0, 3, 0, 0, 0, 0, 0] : Bytes) =
        [0x3E, 0x3E, 0x3E, 0x3E, 0x3E, 0, 3, 0, 0, 0, 0] ++ [0] := rfl
    have hother : Premature 64 ⟨0, 3, []⟩ [0x3E, 0x3E, 0x3E, 0x3E, 0x3E, 0, 3, 0, 0, 0, 0] :=
      ⟨by decide, by decide, _, rfl, by decide⟩
    refine ⟨⟨#[3, 0, 0, 0, 0, 0, 0x3E, 0x3E, 0x3E, 0x3E, 0x3E, 0], 6, 11, by decide, by decide⟩,
      by decide, ?_⟩
    exact (decode_truncated (by decide) hencode hcut (by decide) (by decide) (by decide)).2 rfl
      ⟨0, 3, []⟩ hother

/-- Not every part of a frame is waited for. -/
theorem not_every_part_waits :
    ¬ ∀ (protocol : Protocol) (maxPayload : Nat) (frame : Frame) (octets part rest : Bytes)
      (ring : Ring), frame.payload.length ≤ maxPayload → encode protocol frame = .ok octets →
      octets = part ++ rest → rest ≠ [] → octets.length ≤ ring.capacity → ring.toList = part →
      (decode protocol maxPayload ring).1 = .ok none := by
  intro h
  have hwaits := h .px4 64 ⟨0x3E, 0x3E, [0, 0, 0]⟩ _
    [0x3E, 0x3E, 0x3E, 0x3E, 0x3E, 0, 3, 0, 0, 0, 0] [0]
    ⟨#[0x3E, 0x3E, 0x3E, 0x3E, 0x3E, 0, 3, 0, 0, 0, 0, 0], 0, 11, by decide, by decide⟩
    (by decide) (by decide +kernel) rfl (by decide) (by decide) (by decide)
  have hdelivered : (decode .px4 64
      ⟨#[0x3E, 0x3E, 0x3E, 0x3E, 0x3E, 0, 3, 0, 0, 0, 0, 0], 0, 11, by decide, by decide⟩).1 =
      .ok (some ⟨0, 3, []⟩) := by cbv
  rw [hdelivered] at hwaits
  cases hwaits

end TopicBridge.Frame
