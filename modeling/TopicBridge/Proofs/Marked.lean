import TopicBridge.Proofs.Record

/-! One look for a marked frame, case by case. Reading at a marker finds a frame exactly where
its encoding stands; the look itself is told by what is read at the first and at the last marker
of a run. -/
namespace TopicBridge.Frame

theorem marker_ne_nil : marker ≠ [] := List.cons_ne_nil _ _

/-- The encoding of the frame stands at the head of `s`, and its payload is within the limit. -/
def Opens (maxPayload : Nat) (frame : Frame) (s : Bytes) : Prop :=
  frame.payload.length ≤ maxPayload ∧ ∃ octets, encode .px4 frame = .ok octets ∧ octets <+: s

/-- A whole header is read; its payload may still be on the way. -/
theorem marked_header {maxPayload : Nat} {frame : Frame}
    (hsize : frame.payload.length ≤ maxPayload)
    (hfield : frame.payload.length ≤ FrameConfig.maxLength) (more : Bytes) :
    marked maxPayload (marker ++ frame.header ++ more) =
      if more.length < frame.payload.length then .ok none
      else (checked frame.topic frame.seq (Checksum.crc16 frame.payload)
        (more.take frame.payload.length)).map some := by
  have hlimit : ¬ maxPayload < frame.payload.length := Nat.not_lt_of_le hsize
  simp only [marker, header, Bytes.ofUInt16, List.cons_append, List.nil_append, marked,
    Bytes.toUInt16_ofUInt16, toNat_lengthField hfield, if_neg hlimit]

theorem marked_wire {maxPayload : Nat} {frame : Frame}
    (hsize : frame.payload.length ≤ maxPayload)
    (hfield : frame.payload.length ≤ FrameConfig.maxLength) (following : Bytes) :
    marked maxPayload (frame.wire .px4 ++ following) = .ok (some frame) := by
  have hwire : frame.wire .px4 ++ following =
      marker ++ frame.header ++ (frame.payload ++ following) := by
    simp only [wire, record, List.append_assoc]
  have hwhole : ¬ (frame.payload ++ following).length < frame.payload.length := by
    rw [List.length_append]
    omega
  rw [hwire, marked_header hsize hfield, if_neg hwhole, List.take_left, checked, if_pos rfl]
  rfl

theorem marked_of_length_lt {maxPayload : Nat} {s : Bytes} (h : s.length < 9) :
    marked maxPayload s = .ok none := by
  unfold marked
  split
  · simp only [List.length_cons] at h
    omega
  · rfl

theorem marked_partial {maxPayload : Nat} {frame : Frame} {part rest : Bytes}
    (hsize : frame.payload.length ≤ maxPayload)
    (hfield : frame.payload.length ≤ FrameConfig.maxLength)
    (hcut : frame.wire .px4 = part ++ rest) (hrest : rest ≠ []) :
    marked maxPayload part = .ok none := by
  rcases Nat.lt_or_ge part.length 9 with hshort | hlong
  · exact marked_of_length_lt hshort
  · have hhead : marker ++ frame.header <+: part := by
      refine List.prefix_of_prefix_length_le ?_ ⟨rest, hcut.symm⟩ (by simpa using hlong)
      exact ⟨frame.payload, by simp only [wire, record, List.append_assoc]⟩
    obtain ⟨more, rfl⟩ := hhead
    have hmissing : 0 < rest.length := List.length_pos_iff.mpr hrest
    have hlength := congrArg List.length hcut
    simp only [length_wire_px4, List.length_append] at hlength
    have hheader : (marker ++ frame.header).length = 9 := rfl
    rw [List.length_append] at hheader
    rw [marked_header hsize hfield, if_pos (by omega)]

theorem opens_of_marked {maxPayload : Nat} {s : Bytes} (hs : marker <+: s) {frame : Frame}
    (h : marked maxPayload s = .ok (some frame)) : Opens maxPayload frame s := by
  unfold marked at h
  split at h
  · next a b c topic seq lengthHigh lengthLow checkHigh checkLow rest =>
      dsimp only at h
      split at h
      · cases h
      next hlimit =>
      split at h
      · cases h
      next hwhole =>
      obtain ⟨rfl, hexpected⟩ := checked_eq_ok_iff.mp (eq_ok_of_map_some h)
      have hword := (Bytes.toUInt16 lengthHigh lengthLow).toNat_lt
      have hmax : FrameConfig.maxLength = 65535 := rfl
      have hlength : (Bytes.toUInt16 lengthHigh lengthLow).toNat =
          (rest.take (Bytes.toUInt16 lengthHigh lengthLow).toNat).length := by
        rw [List.length_take]
        omega
      have hsize : (rest.take (Bytes.toUInt16 lengthHigh lengthLow).toNat).length ≤ maxPayload := by
        omega
      have hfield : (rest.take (Bytes.toUInt16 lengthHigh lengthLow).toNat).length ≤
          FrameConfig.maxLength := by omega
      obtain ⟨tail, htail⟩ := hs
      simp only [marker, List.cons_append, List.nil_append, List.cons.injEq] at htail
      obtain ⟨rfl, rfl, rfl, -⟩ := htail
      refine ⟨hsize, _, encode_eq_ok_iff.mpr ⟨hfield, rfl⟩,
        rest.drop (Bytes.toUInt16 lengthHigh lengthLow).toNat, ?_⟩
      rw [wire, record_of_fields hlength hexpected]
      simp [marker]
  · cases h

/-- Reading at a marker finds exactly the frame whose encoding stands there. -/
theorem marked_eq_some_iff {maxPayload : Nat} {s : Bytes} (hs : marker <+: s) {frame : Frame} :
    marked maxPayload s = .ok (some frame) ↔ Opens maxPayload frame s := by
  constructor
  · exact opens_of_marked hs
  · rintro ⟨hsize, octets, hencode, following, rfl⟩
    obtain ⟨hfield, rfl⟩ := encode_eq_ok_iff.mp hencode
    exact marked_wire hsize hfield following

theorem markerRun_append {run : Bytes} (hrun : ∀ b ∈ run, b = 0x3E) (s : Bytes) :
    markerRun (run ++ s) = run.length + markerRun s := by
  induction run with
  | nil => simp
  | cons b rest ih =>
      obtain rfl : b = 0x3E := hrun b List.mem_cons_self
      have hrest := ih fun x member => hrun x (List.mem_cons_of_mem _ member)
      simp only [List.cons_append, markerRun, hrest, List.length_cons]
      omega

theorem markerRun_cons_of_ne {b : UInt8} (h : b ≠ 0x3E) (s : Bytes) : markerRun (b :: s) = 0 := by
  unfold markerRun
  split
  · next heq => exact absurd (List.cons.inj heq).1 h
  · rfl

theorem eq_of_mem_marker : ∀ b ∈ marker, b = 0x3E := by
  simp [marker]

/-- A frame on another topic than the marker octet opens a run of just its marker. -/
theorem markerRun_wire {frame : Frame} (htopic : frame.topic ≠ 0x3E) (following : Bytes) :
    markerRun (frame.wire .px4 ++ following) = 3 := by
  have hwire : frame.wire .px4 ++ following =
      marker ++ frame.topic :: (frame.record.drop 1 ++ following) := by
    simp only [wire, List.append_assoc]
    rfl
  rw [hwire, markerRun_append eq_of_mem_marker, markerRun_cons_of_ne htopic]
  rfl

theorem markerRun_prefix {part s : Bytes} (h : part <+: s) : markerRun part ≤ markerRun s := by
  fun_induction markerRun part generalizing s with
  | case1 rest ih =>
      obtain ⟨tail, rfl⟩ := h
      exact Nat.succ_le_succ (ih ⟨tail, rfl⟩)
  | case2 => exact Nat.zero_le _

/-- A run is as many marker octets as are counted. -/
theorem replicate_append_drop_markerRun (s : Bytes) :
    List.replicate (markerRun s) 0x3E ++ s.drop (markerRun s) = s := by
  fun_induction markerRun s with
  | case1 rest ih =>
      rw [List.replicate_succ, List.drop_succ_cons, List.cons_append, ih]
  | case2 => rfl

/-- The last three octets of a run are a marker. -/
theorem marker_prefix_drop_markerRun {s : Bytes} (h : 3 ≤ markerRun s) :
    marker <+: s.drop (markerRun s - 3) := by
  have hsplit := replicate_append_drop_markerRun s
  have hrun : List.replicate (markerRun s) (0x3E : UInt8) =
      List.replicate (markerRun s - 3) 0x3E ++ marker := by
    show _ = _ ++ List.replicate 3 0x3E
    rw [List.replicate_append_replicate, Nat.sub_add_cancel h]
  have hs : s = List.replicate (markerRun s - 3) 0x3E ++ (marker ++ s.drop (markerRun s)) := by
    rw [← List.append_assoc, ← hrun, hsplit]
  have hdrop := congrArg (List.drop (markerRun s - 3)) hs
  rw [List.drop_left' List.length_replicate] at hdrop
  exact ⟨s.drop (markerRun s), hdrop.symm⟩

section
variable {maxPayload : Nat} {s : Bytes}

theorem lookMarked_of_no_marker (h : ¬ marker <:+: s) :
    lookMarked maxPayload s = .waiting (s.length - min s.length 2) := by
  rw [lookMarked, (Bytes.offsetOf?_eq_none_iff marker_ne_nil).mpr h]
  rfl

theorem lookMarked_short {s : Bytes} (h : s.length < 3) : lookMarked maxPayload s = .waiting 0 := by
  have hnone : ¬ marker <:+: s := by
    intro hin
    have := hin.length_le
    rw [length_marker] at this
    omega
  have hkept : s.length - min s.length 2 = 0 := by omega
  rw [lookMarked_of_no_marker hnone, hkept]

theorem offsetOf?_marker (h : marker <+: s) : Bytes.offsetOf? marker s = some 0 := by
  rw [Bytes.offsetOf?_eq_some_iff marker_ne_nil]
  exact ⟨h, fun m hm => absurd hm (Nat.not_lt_zero m)⟩

theorem Look.after_zero (look : Look) : look.after 0 = look := by
  simp [Look.after]

/-- Octets in front of the first marker are used up, whatever the look finds behind them. -/
theorem lookMarked_of_offset {position : Nat} (h : Bytes.offsetOf? marker s = some position) :
    lookMarked maxPayload s = (lookMarked maxPayload (s.drop position)).after position := by
  have hhead : marker <+: s.drop position :=
    ((Bytes.offsetOf?_eq_some_iff marker_ne_nil).mp h).1
  rw [lookMarked, h]
  conv => rhs; rw [lookMarked, offsetOf?_marker hhead]
  simp only [List.drop_zero, Look.after_zero]

theorem lookMarked_of_found (hs : marker <+: s) {frame : Frame}
    (h : marked maxPayload s = .ok (some frame)) :
    lookMarked maxPayload s = .found frame frame.markedLength := by
  rw [lookMarked, offsetOf?_marker hs]
  simp only [List.drop_zero, Look.after_zero, h]

theorem marker_prefix_wire (frame : Frame) (following : Bytes) :
    marker <+: frame.wire .px4 ++ following := by
  rw [wire, List.append_assoc]
  exact List.prefix_append _ _

theorem markedLength_eq (frame : Frame) : frame.markedLength = (frame.wire .px4).length := by
  rw [markedLength, length_wire_px4]
  exact Nat.add_comm _ _

theorem lookMarked_wire {frame : Frame} (hsize : frame.payload.length ≤ maxPayload)
    (hfield : frame.payload.length ≤ FrameConfig.maxLength) (following : Bytes) :
    lookMarked maxPayload (frame.wire .px4 ++ following) =
      .found frame (frame.wire .px4).length := by
  rw [← markedLength_eq]
  exact lookMarked_of_found (marker_prefix_wire frame following)
    (marked_wire hsize hfield following)

/-- While the first marker waits, a frame at the last marker of the run is taken. -/
theorem lookMarked_of_found_last (hs : marker <+: s) (hrun : 3 < markerRun s) {frame : Frame}
    (hfirst : marked maxPayload s = .ok none)
    (hlast : marked maxPayload (s.drop (markerRun s - 3)) = .ok (some frame)) :
    lookMarked maxPayload s = .found frame (markerRun s - 3 + frame.markedLength) := by
  have hpos : markerRun s - 3 ≠ 0 := by omega
  rw [lookMarked, offsetOf?_marker hs]
  simp only [List.drop_zero, Look.after_zero, hfirst, length_marker, if_neg hpos, hlast]

theorem lookMarked_of_waiting (hs : marker <+: s) (hfirst : marked maxPayload s = .ok none)
    (hlast : ∀ frame, 3 < markerRun s →
      marked maxPayload (s.drop (markerRun s - 3)) ≠ .ok (some frame)) :
    lookMarked maxPayload s = .waiting 0 := by
  rw [lookMarked, offsetOf?_marker hs]
  simp only [List.drop_zero, Look.after_zero, hfirst, length_marker]
  split
  · rfl
  · next hpos =>
      split
      · next frame heq => exact absurd heq (hlast frame (by omega))
      · rfl

/-- A fault at the first marker of a longer run passes on to the last one. -/
theorem lookMarked_of_fault_first (hs : marker <+: s) (hrun : 3 < markerRun s)
    {cause : FrameError} (h : marked maxPayload s = .error cause) :
    lookMarked maxPayload s =
      (lookMarked maxPayload (s.drop (markerRun s - 3))).after (markerRun s - 3) := by
  have hpos : markerRun s - 3 ≠ 0 := by omega
  rw [lookMarked, offsetOf?_marker hs]
  simp only [List.drop_zero, Look.after_zero, h, length_marker, if_neg hpos]

/-- A fault at a marker that is alone is reported and uses up one octet. -/
theorem lookMarked_of_fault_alone (hs : marker <+: s) (hrun : markerRun s ≤ 3)
    {cause : FrameError} (h : marked maxPayload s = .error cause) :
    lookMarked maxPayload s = .failed cause 1 := by
  have hzero : markerRun s - 3 = 0 := by omega
  rw [lookMarked, offsetOf?_marker hs]
  simp only [List.drop_zero, Look.after_zero, h, length_marker, if_pos hzero]

end

end TopicBridge.Frame
