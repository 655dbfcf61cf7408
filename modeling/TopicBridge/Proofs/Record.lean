import TopicBridge.Frame.Decode
import TopicBridge.Proofs.Octets
import TopicBridge.Proofs.Sizes

/-! The fields of a record on both sides: what the encoder writes for a frame, and which frames
the decoder accepts for given fields. -/
namespace TopicBridge.Frame

theorem toNat_lengthField {frame : Frame} (h : frame.payload.length ≤ FrameConfig.maxLength) :
    (UInt16.ofNat frame.payload.length).toNat = frame.payload.length := by
  have hmax : FrameConfig.maxLength = 65535 := rfl
  rw [UInt16.toNat_ofNat']
  omega

theorem checked_eq_ok_iff {topic seq : UInt8} {expected : UInt16} {payload : Bytes}
    {frame : Frame} :
    checked topic seq expected payload = .ok frame ↔
      frame = ⟨topic, seq, payload⟩ ∧ expected = Checksum.crc16 payload := by
  unfold checked
  dsimp only
  split
  · next hcheck => simp [hcheck, eq_comm]
  · next hcheck => simp [Ne.symm hcheck]

theorem eq_ok_of_map_some {outcome : Except FrameError Frame} {frame : Frame}
    (h : outcome.map some = .ok (some frame)) : outcome = .ok frame := by
  cases outcome with
  | error cause => cases h
  | ok found =>
      cases h
      rfl

/-- Fields that agree with a payload are the record of its frame. -/
theorem record_of_fields {topic seq lengthHigh lengthLow checkHigh checkLow : UInt8}
    {payload : Bytes} (hlength : (Bytes.toUInt16 lengthHigh lengthLow).toNat = payload.length)
    (hcheck : Bytes.toUInt16 checkHigh checkLow = Checksum.crc16 payload) :
    record ⟨topic, seq, payload⟩ =
      topic :: seq :: lengthHigh :: lengthLow :: checkHigh :: checkLow :: payload := by
  simp only [record, header, ← hlength, ← hcheck, UInt16.ofNat_toNat, Bytes.ofUInt16_toUInt16,
    List.cons_append, List.nil_append]

theorem ofRecord_record {maxPayload : Nat} {frame : Frame}
    (hsize : frame.payload.length ≤ maxPayload)
    (hfield : frame.payload.length ≤ FrameConfig.maxLength) :
    ofRecord maxPayload frame.record = .ok frame := by
  have hlimit : ¬ maxPayload < frame.payload.length := Nat.not_lt_of_le hsize
  simp only [record, header, Bytes.ofUInt16, List.cons_append, List.nil_append, ofRecord,
    Bytes.toUInt16_ofUInt16, toNat_lengthField hfield, ne_eq, not_true_eq_false, if_false,
    if_neg hlimit]
  exact checked_eq_ok_iff.mpr ⟨rfl, rfl⟩

end TopicBridge.Frame
