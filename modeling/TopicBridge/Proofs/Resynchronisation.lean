import TopicBridge.Proofs.Truncation
import Mathlib.Data.List.DropRight

/-! A marked frame behind noise. Noise that holds no marker may still end in marker octets, which
lengthen the run in front of the frame: the look then tries the head of the run before the last
three, and takes a frame that opens there. Nothing else keeps it from the frame behind the noise. -/
namespace TopicBridge.Frame

/-- The marker octets that `s` ends with. -/
def tailRun (s : Bytes) : Bytes := s.rtakeWhile (· = 0x3E)

def beforeRun (s : Bytes) : Bytes := s.rdropWhile (· = 0x3E)

/-- The marker octets at the end of the noise open another whole frame with what follows. -/
def Misread (maxPayload : Nat) (other : Frame) (noise rest : Bytes) : Prop :=
  tailRun noise ≠ [] ∧ Opens maxPayload other (tailRun noise ++ rest)

theorem beforeRun_append_tailRun (s : Bytes) : beforeRun s ++ tailRun s = s :=
  List.rdropWhile_append_rtakeWhile

theorem eq_of_mem_tailRun (s : Bytes) : ∀ b ∈ tailRun s, b = 0x3E := by
  intro b member
  simpa using List.mem_rtakeWhile_imp member

theorem getLast_beforeRun {s : Bytes} (h : beforeRun s ≠ []) :
    (beforeRun s).getLast h ≠ 0x3E := by
  intro heq
  exact List.rdropWhile_last_not _ s h (decide_eq_true heq)

/-- Marker octets in front of a marker begin with a marker. -/
theorem marker_prefix_append {run s : Bytes} (hrun : ∀ b ∈ run, b = 0x3E) (hs : marker <+: s) :
    marker <+: run ++ s := by
  obtain ⟨tail, rfl⟩ := hs
  have hreplicate : run = List.replicate run.length 0x3E := List.eq_replicate_of_mem hrun
  have hmarker : marker = List.replicate 3 0x3E := rfl
  rw [hreplicate, ← List.append_assoc, hmarker, List.replicate_append_replicate, Nat.add_comm,
    ← List.replicate_append_replicate, List.append_assoc]
  exact List.prefix_append _ _

/-- No marker begins in front of the run that the noise ends with. -/
theorem offsetOf?_noise {noise rest : Bytes} (hnoise : ¬ marker <:+: noise)
    (hrest : marker <+: rest) :
    Bytes.offsetOf? marker (noise ++ rest) = some (beforeRun noise).length := by
  have hsplit := beforeRun_append_tailRun noise
  rw [Bytes.offsetOf?_eq_some_iff marker_ne_nil, ← hsplit, List.append_assoc]
  rw [hsplit, List.drop_left]
  refine ⟨marker_prefix_append (eq_of_mem_tailRun noise) hrest, ?_⟩
  intro m hm hfound
  rw [List.drop_append_of_le_length (Nat.le_of_lt hm)] at hfound
  have hne : (beforeRun noise).drop m ≠ [] := by
    intro hnil
    exact absurd (List.drop_eq_nil_iff.mp hnil) (Nat.not_le_of_lt hm)
  rcases List.prefix_or_prefix_of_prefix hfound (List.prefix_append _ _) with hwhole | hcut
  · apply hnoise
    rw [← hsplit]
    exact (hwhole.isInfix.trans (List.drop_suffix m _).isInfix).trans (List.infix_append' [] _ _)
  · have hlast : ((beforeRun noise).drop m).getLast hne ∈ marker :=
      hcut.subset (List.getLast_mem hne)
    rw [List.getLast_drop] at hlast
    have hbefore : beforeRun noise ≠ [] := fun hnil => hne (by rw [hnil, List.drop_nil])
    exact getLast_beforeRun hbefore (eq_of_mem_marker _ hlast)

theorem append_eq_beforeRun (noise rest : Bytes) :
    noise ++ rest = beforeRun noise ++ (tailRun noise ++ rest) := by
  rw [← List.append_assoc, beforeRun_append_tailRun]

theorem drop_beforeRun (noise rest : Bytes) :
    (noise ++ rest).drop (beforeRun noise).length = tailRun noise ++ rest := by
  rw [append_eq_beforeRun, List.drop_left]

section
variable {maxPayload : Nat} {frame : Frame} {noise following : Bytes}

/-- Behind the noise the look is at the run and the frame together. -/
theorem lookMarked_noise {rest : Bytes} (hnoise : ¬ marker <:+: noise) (hrest : marker <+: rest) :
    lookMarked maxPayload (noise ++ rest) =
      (lookMarked maxPayload (tailRun noise ++ rest)).after (beforeRun noise).length := by
  rw [lookMarked_of_offset (offsetOf?_noise hnoise hrest), drop_beforeRun]

theorem markerRun_tailRun (noise following : Bytes) (htopic : frame.topic ≠ 0x3E) :
    markerRun (tailRun noise ++ (frame.wire .px4 ++ following)) = (tailRun noise).length + 3 := by
  rw [markerRun_append (eq_of_mem_tailRun noise), markerRun_wire htopic]

/-- A run that opens no frame of its own is passed over to the frame behind it. -/
theorem lookMarked_run (htopic : frame.topic ≠ 0x3E) (hsize : frame.payload.length ≤ maxPayload)
    (hfield : frame.payload.length ≤ FrameConfig.maxLength)
    (hclear : ∀ other, ¬ Misread maxPayload other noise (frame.wire .px4 ++ following)) :
    lookMarked maxPayload (tailRun noise ++ (frame.wire .px4 ++ following)) =
      .found frame ((tailRun noise).length + (frame.wire .px4).length) := by
  have hhead := marker_prefix_wire frame following
  have hs := marker_prefix_append (eq_of_mem_tailRun noise) hhead
  have hframe := lookMarked_wire hsize hfield following
  have hcount := markerRun_tailRun noise following htopic
  by_cases hrun : tailRun noise = []
  · rw [hrun, List.nil_append, hframe, List.length_nil, Nat.zero_add]
  · have hlong : 3 < markerRun (tailRun noise ++ (frame.wire .px4 ++ following)) := by
      have := List.length_pos_iff.mpr hrun
      omega
    have hlast : (tailRun noise ++ (frame.wire .px4 ++ following)).drop
        (markerRun (tailRun noise ++ (frame.wire .px4 ++ following)) - 3) =
        frame.wire .px4 ++ following := by
      rw [hcount, Nat.add_sub_cancel, List.drop_left]
    cases hfirst : marked maxPayload (tailRun noise ++ (frame.wire .px4 ++ following)) with
    | error cause =>
        rw [lookMarked_of_fault_first hs hlong hfirst, hlast, hframe, hcount, Nat.add_sub_cancel]
        rfl
    | ok found =>
        cases found with
        | none =>
            have hfound := marked_wire hsize hfield following
            rw [← hlast] at hfound
            rw [lookMarked_of_found_last hs hlong hfirst hfound, hcount, Nat.add_sub_cancel,
              markedLength_eq]
        | some other => exact absurd ⟨hrun, opens_of_marked hs hfirst⟩ (hclear other)

/-- A frame that the run opens is on the marker octet's topic. -/
theorem topic_of_misread {other : Frame}
    (h : Misread maxPayload other noise (frame.wire .px4 ++ following)) : other.topic = 0x3E := by
  obtain ⟨hrun, -, octets, hencode, hprefix⟩ := h
  obtain ⟨-, rfl⟩ := encode_eq_ok_iff.mp hencode
  obtain ⟨b, more, hcons⟩ := List.exists_cons_of_ne_nil hrun
  have hmore : ∀ x ∈ more, x = 0x3E := by
    intro x member
    exact eq_of_mem_tailRun noise _ (hcons ▸ List.mem_cons_of_mem b member)
  have hb : b = 0x3E := eq_of_mem_tailRun noise _ (hcons ▸ List.mem_cons_self)
  obtain ⟨tail, htail⟩ := marker_prefix_append hmore (marker_prefix_wire frame following)
  rw [hcons, List.cons_append, ← htail, hb] at hprefix
  obtain ⟨rest, hrest⟩ := hprefix
  simp only [wire, record, header, marker, List.cons_append, List.nil_append,
    List.cons.injEq] at hrest
  exact hrest.2.2.2.1

/-- Noise without a marker does not cost the frame behind it, and the decoder leaves exactly what
follows, unless the marker octets at the end of the noise open a frame on the marker octet's topic
together with what follows them: that frame is delivered then. -/
theorem decode_past_noise {octets : Bytes} {ring : Ring} (hnoise : ¬ marker <:+: noise)
    (htopic : frame.topic ≠ 0x3E) (hsize : frame.payload.length ≤ maxPayload)
    (hencode : encode .px4 frame = .ok octets)
    (hring : ring.toList = noise ++ octets ++ following) :
    ((∀ other, ¬ Misread maxPayload other noise (octets ++ following)) →
      (decode .px4 maxPayload ring).1 = .ok (some frame) ∧
      (decode .px4 maxPayload ring).2.toList = following) ∧
    (∀ other, Misread maxPayload other noise (octets ++ following) →
      other.topic = 0x3E ∧ (decode .px4 maxPayload ring).1 = .ok (some other) ∧
      ring.toList =
        beforeRun noise ++ other.wire .px4 ++ (decode .px4 maxPayload ring).2.toList) := by
  obtain ⟨hfield, rfl⟩ := encode_eq_ok_iff.mp hencode
  have hhead := marker_prefix_wire frame following
  rw [List.append_assoc] at hring
  constructor
  · intro hclear
    rw [decode_fst, toList_decode, hring, look, lookMarked_noise hnoise hhead,
      lookMarked_run htopic hsize hfield hclear]
    refine ⟨rfl, ?_⟩
    show (noise ++ (frame.wire .px4 ++ following)).drop ((beforeRun noise).length +
      ((tailRun noise).length + (frame.wire .px4).length)) = following
    rw [← List.drop_drop, drop_beforeRun, ← List.drop_drop, List.drop_left, List.drop_left]
  · intro other hother
    refine ⟨topic_of_misread hother, ?_⟩
    have hs := marker_prefix_append (eq_of_mem_tailRun noise) hhead
    have hlook := lookMarked_of_found hs ((marked_eq_some_iff hs).mpr hother.2)
    obtain ⟨-, -, octets, hopens, rest, hrest⟩ := hother
    obtain ⟨-, rfl⟩ := encode_eq_ok_iff.mp hopens
    rw [decode_fst, toList_decode, hring, look, lookMarked_noise hnoise hhead, hlook]
    refine ⟨rfl, ?_⟩
    show _ = _ ++ (noise ++ (frame.wire .px4 ++ following)).drop ((beforeRun noise).length +
      other.markedLength)
    rw [← List.drop_drop, drop_beforeRun, markedLength_eq, ← hrest, List.drop_left,
      List.append_assoc, hrest]
    exact append_eq_beforeRun noise _

end

/-- Behind a run of two the frame is found in a wrapped queue, since the run announces too long a
payload. Behind a run of one the frame without payload gives its header away to the run. -/
theorem decode_past_noise_tail :
    (∃ ring : Ring, ring.toList = [0x21, 0x3E, 0x3E] ++
        [0x3E, 0x3E, 0x3E, 5, 0, 0, 2, 0x1F, 0x6C, 0x6F, 0x6B] ++ [0x3E] ∧
      (decode .px4 64 ring).1 = .ok (some ⟨5, 0, [0x6F, 0x6B]⟩) ∧
      (decode .px4 64 ring).2.toList = [0x3E]) ∧
    ∃ ring : Ring, ring.toList = [0x3E] ++ [0x3E, 0x3E, 0x3E, 5, 0, 0, 0, 0, 0] ++ [] ∧
      (decode .px4 64 ring).1 = .ok (some ⟨0x3E, 5, []⟩) := by
  constructor
  · have hencode : encode .px4 ⟨5, 0, [0x6F, 0x6B]⟩ =
        .ok [0x3E, 0x3E, 0x3E, 5, 0, 0, 2, 0x1F, 0x6C, 0x6F, 0x6B] := by decide +kernel
    refine ⟨⟨#[0x1F, 0x6C, 0x6F, 0x6B, 0x3E, 0, 0x21, 0x3E, 0x3E, 0x3E, 0x3E, 0x3E, 5, 0, 0, 2],
      6, 15, by decide, by decide⟩, by decide, ?_⟩
    have hnoise : ¬ marker <:+: [0x21, 0x3E, 0x3E] := by decide
    refine (decode_past_noise hnoise (by decide) (by decide) hencode (by decide)).1 ?_
    intro other hother
    have hs : marker <+: tailRun [0x21, 0x3E, 0x3E] ++
        ([0x3E, 0x3E, 0x3E, 5, 0, 0, 2, 0x1F, 0x6C, 0x6F, 0x6B] ++ [0x3E]) := by decide
    have hfound := (marked_eq_some_iff hs).mpr hother.2
    cases hfound
  · have hother : Misread 64 ⟨0x3E, 5, []⟩ [0x3E] ([0x3E, 0x3E, 0x3E, 5, 0, 0, 0, 0, 0] ++ []) :=
      ⟨by decide, by decide, _, rfl, by decide⟩
    have hencode : encode .px4 ⟨5, 0, []⟩ = .ok [0x3E, 0x3E, 0x3E, 5, 0, 0, 0, 0, 0] := rfl
    refine ⟨⟨#[0x3E, 0x3E, 0x3E, 0x3E, 5, 0, 0, 0, 0, 0], 0, 10, by decide, by decide⟩,
      by decide, ?_⟩
    exact ((decode_past_noise (by decide) (by decide) (by decide) hencode (by decide)).2 _
      hother).2.1

/-- Not every frame behind noise without a marker is delivered first. -/
theorem not_every_noise_passed :
    ¬ ∀ (maxPayload : Nat) (noise : Bytes) (frame : Frame) (octets following : Bytes)
      (ring : Ring), ¬ marker <:+: noise → frame.topic ≠ 0x3E →
      frame.payload.length ≤ maxPayload → encode .px4 frame = .ok octets →
      ring.toList = noise ++ octets ++ following →
      (decode .px4 maxPayload ring).1 = .ok (some frame) := by
  intro h
  have hfound := h 64 [0x3E] ⟨5, 0, []⟩ [0x3E, 0x3E, 0x3E, 5, 0, 0, 0, 0, 0] []
    ⟨#[0x3E, 0x3E, 0x3E, 0x3E, 5, 0, 0, 0, 0, 0], 0, 10, by decide, by decide⟩
    (by decide) (by decide) (by decide) rfl (by decide)
  have hother : (decode .px4 64
      ⟨#[0x3E, 0x3E, 0x3E, 0x3E, 5, 0, 0, 0, 0, 0], 0, 10, by decide, by decide⟩).1 =
      .ok (some ⟨0x3E, 5, []⟩) := by cbv
  rw [hother] at hfound
  cases hfound

end TopicBridge.Frame
