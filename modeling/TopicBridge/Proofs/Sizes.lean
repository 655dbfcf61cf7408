import TopicBridge.Frame.Encode
import TopicBridge.Proofs.Stuffing

/-! How long the octets of a frame are, and why the payloads that a usable configuration
accepts always encode into its queue. -/
namespace TopicBridge

namespace Protocol

theorem maxWireLength_mono (protocol : Protocol) {m n : Nat} (h : m ≤ n) :
    protocol.maxWireLength m ≤ protocol.maxWireLength n := by
  cases protocol <;> simp only [maxWireLength, stuffedMax] <;> omega

end Protocol

namespace Frame

@[simp] theorem length_marker : marker.length = 3 := rfl

@[simp] theorem length_header (frame : Frame) : frame.header.length = 6 := rfl

@[simp] theorem length_record (frame : Frame) : frame.record.length = frame.payload.length + 6 := by
  rw [record, List.length_append, length_header, Nat.add_comm]

theorem record_ne_nil (frame : Frame) : frame.record ≠ [] := by
  simp [record, header]

theorem wire_ne_nil (protocol : Protocol) (frame : Frame) : frame.wire protocol ≠ [] := by
  cases protocol with
  | px4 => exact List.cons_ne_nil _ _
  | cobs => exact List.append_ne_nil_of_right_ne_nil _ (List.cons_ne_nil _ _)

@[simp] theorem length_wire_px4 (frame : Frame) :
    (frame.wire .px4).length = frame.payload.length + 9 := by
  rw [wire, List.length_append, length_marker, length_record]
  omega

theorem length_wire_le (protocol : Protocol) (frame : Frame) :
    (frame.wire protocol).length ≤ protocol.maxWireLength frame.payload.length := by
  cases protocol with
  | px4 =>
      simp only [length_wire_px4, Protocol.maxWireLength, Protocol.headerLength]
      omega
  | cobs =>
      have hstuff := Cobs.length_stuff_le frame.record
      simp only [wire, Protocol.maxWireLength, Protocol.stuffedMax, Protocol.headerLength,
        List.length_append, List.length_singleton, length_record] at hstuff ⊢
      rw [Nat.add_comm 6]
      omega

/-- A short record is one block or has a zero for each further one, so the bound is met. -/
theorem length_wire_of_short {protocol : Protocol} {frame : Frame}
    (h : frame.payload.length + 6 < 254) :
    (frame.wire protocol).length = protocol.maxWireLength frame.payload.length := by
  refine Nat.le_antisymm (frame.length_wire_le protocol) ?_
  cases protocol with
  | px4 =>
      rw [length_wire_px4, Protocol.maxWireLength, Protocol.headerLength]
      omega
  | cobs =>
      have hstuff := Cobs.le_length_stuff frame.record_ne_nil List.nil_suffix List.not_mem_nil
      rw [length_record] at hstuff
      simp only [wire, Protocol.maxWireLength, Protocol.stuffedMax, Protocol.headerLength,
        List.length_append, List.length_singleton]
      omega

/-- The length field holds the lengths of all payloads that encode. -/
theorem encode_eq_ok_iff {protocol : Protocol} {frame : Frame} {octets : Bytes} :
    encode protocol frame = .ok octets ↔
      frame.payload.length ≤ FrameConfig.maxLength ∧ octets = frame.wire protocol := by
  unfold encode
  split
  · next hlong =>
      constructor
      · intro h
        cases h
      · rintro ⟨hshort, _⟩
        omega
  · next hshort =>
      constructor
      · rintro ⟨⟩
        exact ⟨Nat.le_of_not_lt hshort, rfl⟩
      · rintro ⟨_, rfl⟩
        rfl

theorem encodeOnto_of_le {protocol : Protocol} {frame : Frame}
    (h : frame.payload.length ≤ FrameConfig.maxLength) (buffer : Bytes) :
    encodeOnto protocol frame buffer = (.ok (), buffer ++ frame.wire protocol) := by
  rw [encodeOnto, encode_eq_ok_iff.mpr ⟨h, rfl⟩]

theorem encodeOnto_of_lt {protocol : Protocol} {frame : Frame}
    (h : FrameConfig.maxLength < frame.payload.length) (buffer : Bytes) :
    encodeOnto protocol frame buffer =
      (.error (.payloadTooLarge frame.payload.length FrameConfig.maxLength), buffer) := by
  rw [encodeOnto, encode, if_pos h]

end Frame

namespace FrameConfig

theorem fitting_le (protocol : Protocol) (capacity size : Nat) :
    fitting protocol capacity size ≤ size := by
  fun_induction fitting protocol capacity size with
  | case1 => exact Nat.le_refl 0
  | case2 size hlong ih => exact Nat.le_succ_of_le ih
  | case3 size hfits => exact Nat.le_refl _

/-- The search stops at a size that fits, if the empty payload does. -/
theorem maxWireLength_fitting_le {protocol : Protocol} {capacity : Nat}
    (h : protocol.maxWireLength 0 ≤ capacity) (size : Nat) :
    protocol.maxWireLength (fitting protocol capacity size) ≤ capacity := by
  fun_induction fitting protocol capacity size with
  | case1 => exact h
  | case2 size hlong ih => exact ih
  | case3 size hfits => exact Nat.le_of_not_lt hfits

theorem effectiveMaxPayload_le_maxLength (config : FrameConfig) :
    config.effectiveMaxPayload ≤ maxLength :=
  Nat.le_trans (fitting_le ..) (Nat.min_le_right ..)

theorem maxWireLength_le_of_validate {config : FrameConfig} (h : config.validate = .ok ()) :
    config.protocol.maxWireLength 1 ≤ config.ringCapacity := by
  apply Nat.le_of_not_lt
  intro hsmall
  simp [validate, hsmall] at h

theorem ringCapacity_pos {config : FrameConfig} (h : config.validate = .ok ()) :
    0 < config.ringCapacity := by
  have hsmallest := maxWireLength_le_of_validate h
  unfold Protocol.maxWireLength Protocol.headerLength at hsmallest
  split at hsmallest <;> omega

/-- The longest frame that a usable configuration accepts fits into its queue. -/
theorem maxWireLength_effectiveMaxPayload {config : FrameConfig} (h : config.validate = .ok ()) :
    config.protocol.maxWireLength config.effectiveMaxPayload ≤ config.ringCapacity := by
  apply maxWireLength_fitting_le
  exact Nat.le_trans (Protocol.maxWireLength_mono _ (Nat.zero_le 1))
    (maxWireLength_le_of_validate h)

theorem length_wire_le_ringCapacity {config : FrameConfig} (h : config.validate = .ok ())
    {frame : Frame} (hsize : frame.payload.length ≤ config.effectiveMaxPayload) :
    (frame.wire config.protocol).length ≤ config.ringCapacity :=
  calc (frame.wire config.protocol).length
      ≤ config.protocol.maxWireLength frame.payload.length := Frame.length_wire_le _ _
    _ ≤ config.protocol.maxWireLength config.effectiveMaxPayload :=
        Protocol.maxWireLength_mono _ hsize
    _ ≤ config.ringCapacity := maxWireLength_effectiveMaxPayload h

end FrameConfig
end TopicBridge
