import TopicBridge.Proofs.Record

/-! One look for a delimited frame, case by case: an empty record, a whole record, a queue full
of one record, and a record still on the way. -/
namespace TopicBridge.Frame

section
variable {capacity maxPayload : Nat}

@[simp] theorem lookDelimited_nil : lookDelimited capacity maxPayload [] = .waiting 0 := rfl

theorem lookDelimited_zero (rest : Bytes) :
    lookDelimited capacity maxPayload (0 :: rest) =
      (lookDelimited capacity maxPayload rest).after 1 := by
  rw [lookDelimited]
  exact if_pos rfl

/-- What is done with a record that has an octet, once its extent is known. -/
theorem lookDelimited_of_takeWhile {s stuffed : Bytes} (hne : stuffed ≠ [])
    (htake : s.takeWhile (· ≠ delimiter) = stuffed) :
    lookDelimited capacity maxPayload s =
      if stuffed.length < s.length then
        ⟨(ofStuffed maxPayload stuffed).map some, stuffed.length + 1⟩
      else if s.length = capacity then .failed (.payloadTooLarge s.length maxPayload) s.length
      else .waiting 0 := by
  cases s with
  | nil => exact absurd htake.symm hne
  | cons b rest =>
      have hb : b ≠ delimiter := by
        rintro rfl
        exact hne htake.symm
      rw [lookDelimited, if_neg hb, ← htake]

theorem lookDelimited_record {stuffed : Bytes} (hne : stuffed ≠ []) (hclean : 0 ∉ stuffed)
    (rest : Bytes) :
    lookDelimited capacity maxPayload (stuffed ++ 0 :: rest) =
      ⟨(ofStuffed maxPayload stuffed).map some, stuffed.length + 1⟩ := by
  have hshort : stuffed.length < (stuffed ++ 0 :: rest).length := by
    rw [List.length_append, List.length_cons]
    omega
  rw [lookDelimited_of_takeWhile hne (Cobs.takeWhile_append_zero hclean rest), if_pos hshort]

theorem lookDelimited_open {s : Bytes} (hclean : 0 ∉ s) (hroom : s.length ≠ capacity) :
    lookDelimited capacity maxPayload s = .waiting 0 := by
  by_cases hne : s = []
  · rw [hne, lookDelimited_nil]
  · rw [lookDelimited_of_takeWhile hne (Cobs.takeWhile_of_zero_not_mem hclean),
      if_neg (Nat.lt_irrefl _), if_neg hroom]

theorem lookDelimited_full {s : Bytes} (hne : s ≠ []) (hclean : 0 ∉ s)
    (hfull : s.length = capacity) :
    lookDelimited capacity maxPayload s =
      .failed (.payloadTooLarge capacity maxPayload) capacity := by
  rw [lookDelimited_of_takeWhile hne (Cobs.takeWhile_of_zero_not_mem hclean),
    if_neg (Nat.lt_irrefl _), if_pos hfull, hfull]

theorem ofStuffed_stuff {frame : Frame} (hsize : frame.payload.length ≤ maxPayload)
    (hfield : frame.payload.length ≤ FrameConfig.maxLength) :
    ofStuffed maxPayload (Cobs.stuff frame.record) = .ok frame := by
  rw [ofStuffed, Cobs.unstuff_stuff]
  exact ofRecord_record hsize hfield

theorem lookDelimited_wire {frame : Frame} (hsize : frame.payload.length ≤ maxPayload)
    (hfield : frame.payload.length ≤ FrameConfig.maxLength) (following : Bytes) :
    lookDelimited capacity maxPayload (frame.wire .cobs ++ following) =
      .found frame (frame.wire .cobs).length := by
  have hne : Cobs.stuff frame.record ≠ [] := Cobs.stuff_ne_nil frame.record_ne_nil
  rw [wire, List.append_assoc]
  show lookDelimited capacity maxPayload (_ ++ 0 :: following) = _
  rw [lookDelimited_record hne (Cobs.zero_not_mem_stuff _), ofStuffed_stuff hsize hfield,
    List.length_append]
  rfl

theorem lookDelimited_partial {frame : Frame} {part rest : Bytes}
    (hcut : frame.wire .cobs = part ++ rest) (hrest : rest ≠ [])
    (hfits : (frame.wire .cobs).length ≤ capacity) :
    lookDelimited capacity maxPayload part = .waiting 0 := by
  have hmissing : 0 < rest.length := List.length_pos_iff.mpr hrest
  have hlength := congrArg List.length hcut
  simp only [List.length_append] at hlength
  have hpart : part <+: Cobs.stuff frame.record := by
    refine List.prefix_of_prefix_length_le ⟨rest, hcut.symm⟩ (List.prefix_append _ _) ?_
    simp only [wire, List.length_append, List.length_singleton] at hlength
    omega
  have hclean : 0 ∉ part := fun member => Cobs.zero_not_mem_stuff _ (hpart.subset member)
  exact lookDelimited_open hclean (by omega)

end

end TopicBridge.Frame
