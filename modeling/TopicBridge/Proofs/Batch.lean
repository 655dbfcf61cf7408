import TopicBridge.Proofs.Truncation

/-! A batch of frames, encoded one behind the other into one buffer and decoded from one queue. What
stands behind a frame has no say in how it is read, whatever the topics and payloads are. -/
namespace TopicBridge.Frame

def encodeAll (protocol : Protocol) : List Frame → Bytes → List (Except FrameError Unit) × Bytes
  | [], buffer => ([], buffer)
  | frame :: frames, buffer =>
      let first := encodeOnto protocol frame buffer
      let others := encodeAll protocol frames first.2
      (first.1 :: others.1, others.2)

/-- The results of so many looks at a queue, and the queue that they leave. -/
def decodes (protocol : Protocol) (maxPayload : Nat) :
    Nat → Ring → List (Except FrameError (Option Frame)) × Ring
  | 0, ring => ([], ring)
  | count + 1, ring =>
      let first := decode protocol maxPayload ring
      let others := decodes protocol maxPayload count first.2
      (first.1 :: others.1, others.2)

section
variable {protocol : Protocol} {maxPayload : Nat} {frame : Frame} {frames : List Frame}

theorem encodeAll_of_le (h : ∀ frame ∈ frames, frame.payload.length ≤ FrameConfig.maxLength)
    (buffer : Bytes) :
    encodeAll protocol frames buffer =
      (frames.map fun _ => .ok (), buffer ++ frames.flatMap (wire protocol)) := by
  induction frames generalizing buffer with
  | nil => rw [encodeAll, List.map_nil, List.flatMap_nil, List.append_nil]
  | cons frame frames ih =>
      have hfirst : encodeOnto protocol frame buffer = (.ok (), buffer ++ frame.wire protocol) :=
        encodeOnto_of_le (h frame List.mem_cons_self) buffer
      rw [encodeAll, hfirst]
      dsimp only
      rw [ih fun f hf => h f (List.mem_cons_of_mem _ hf), List.append_assoc]
      rfl

theorem decodes_of_empty {ring : Ring} (hring : ring.toList = []) (count : Nat) :
    (decodes protocol maxPayload count ring).1 = List.replicate count (.ok none) ∧
      (decodes protocol maxPayload count ring).2.toList = [] := by
  induction count generalizing ring with
  | zero => exact ⟨rfl, hring⟩
  | succ count ih =>
      have hlook : look protocol ring.capacity maxPayload ring.toList = .waiting 0 := by
        rw [hring, look_nil]
      obtain ⟨hnone, hleft⟩ := decode_waiting hlook
      obtain ⟨hothers, hempty⟩ := ih (hleft.trans hring)
      refine ⟨?_, hempty⟩
      rw [decodes, hnone, hothers, List.replicate_succ]

/-- Each look takes the frame at the head, and the queue then begins with the next one. -/
theorem decodes_wires (hsize : ∀ frame ∈ frames, frame.payload.length ≤ maxPayload)
    (hfield : ∀ frame ∈ frames, frame.payload.length ≤ FrameConfig.maxLength) {ring : Ring}
    (hring : ring.toList = frames.flatMap (wire protocol)) (more : Nat) :
    (decodes protocol maxPayload (frames.length + more) ring).1 =
        frames.map (fun frame => .ok (some frame)) ++ List.replicate more (.ok none) ∧
      (decodes protocol maxPayload (frames.length + more) ring).2.toList = [] := by
  induction frames generalizing ring with
  | nil =>
      rw [List.length_nil, Nat.zero_add]
      exact decodes_of_empty hring more
  | cons frame frames ih =>
      rw [List.flatMap_cons] at hring
      obtain ⟨hfound, hleft⟩ :=
        decode_wire (hsize frame List.mem_cons_self) (hfield frame List.mem_cons_self) hring
      obtain ⟨hothers, hempty⟩ := ih (fun f hf => hsize f (List.mem_cons_of_mem _ hf))
        (fun f hf => hfield f (List.mem_cons_of_mem _ hf)) hleft
      rw [List.length_cons, Nat.add_right_comm, decodes, hfound, hothers]
      exact ⟨rfl, hempty⟩

end

/-- Frames encoded one behind the other and pushed into an empty queue come out of it one look each,
in order and without an error, and further looks find nothing. A payload that overruns the length
field is refused and leaves the buffer as it was. -/
theorem decodes_encodeAll {protocol : Protocol} {maxPayload : Nat} {frames : List Frame}
    (hsizes : ∀ frame ∈ frames, frame.payload.length ≤ min maxPayload FrameConfig.maxLength)
    {ring : Ring} (hempty : ring.toList = [])
    (hfits : (encodeAll protocol frames []).2.length ≤ ring.free) :
    (∀ (frame : Frame) (buffer : Bytes),
      (frame.payload.length ≤ FrameConfig.maxLength →
        encodeOnto protocol frame buffer = (.ok (), buffer ++ frame.wire protocol)) ∧
      (FrameConfig.maxLength < frame.payload.length →
        encodeOnto protocol frame buffer =
          (.error (.payloadTooLarge frame.payload.length FrameConfig.maxLength), buffer))) ∧
    (∀ buffer, encodeAll protocol frames buffer =
      (frames.map fun _ => .ok (), buffer ++ frames.flatMap (wire protocol))) ∧
    ∃ filled, ring.push (encodeAll protocol frames []).2 = .ok filled ∧
      ∀ more,
        (decodes protocol maxPayload (frames.length + more) filled).1 =
          frames.map (fun frame => .ok (some frame)) ++ List.replicate more (.ok none) ∧
        (decodes protocol maxPayload (frames.length + more) filled).2.toList = [] := by
  have hsize : ∀ frame ∈ frames, frame.payload.length ≤ maxPayload :=
    fun frame hframe => Nat.le_trans (hsizes frame hframe) (Nat.min_le_left ..)
  have hfield : ∀ frame ∈ frames, frame.payload.length ≤ FrameConfig.maxLength :=
    fun frame hframe => Nat.le_trans (hsizes frame hframe) (Nat.min_le_right ..)
  have hbatch : encodeAll protocol frames [] =
      (frames.map fun _ => .ok (), frames.flatMap (wire protocol)) :=
    encodeAll_of_le hfield []
  refine ⟨fun frame buffer => ⟨fun h => encodeOnto_of_le h buffer,
    fun h => encodeOnto_of_lt h buffer⟩, encodeAll_of_le hfield, ?_⟩
  obtain ⟨filled, hpush, hlist, -⟩ := ring.push_fits _ hfits
  rw [hempty, hbatch] at hlist
  exact ⟨filled, hpush, decodes_wires hsize hfield hlist⟩

/-- The batch fills the queue and wraps, and a marker runs on into topic, number and payload. -/
theorem decodes_encodeAll_wrapped :
    ∃ filled, (⟨Array.replicate 20 0, 15, 0, by decide, by decide⟩ : Ring).push
        (encodeAll .px4 [⟨0x3E, 0x3E, [0x3E, 0]⟩, ⟨0, 0, []⟩] []).2 = .ok filled ∧
      (decodes .px4 64 3 filled).1 =
        [.ok (some ⟨0x3E, 0x3E, [0x3E, 0]⟩), .ok (some ⟨0, 0, []⟩), .ok none] ∧
      (decodes .px4 64 3 filled).2.toList = [] := by
  have hsizes : ∀ frame ∈ ([⟨0x3E, 0x3E, [0x3E, 0]⟩, ⟨0, 0, []⟩] : List Frame),
      frame.payload.length ≤ min 64 FrameConfig.maxLength := by decide
  have hempty : (⟨Array.replicate 20 0, 15, 0, by decide, by decide⟩ : Ring).toList = [] := rfl
  have hfits : (encodeAll .px4 [⟨0x3E, 0x3E, [0x3E, 0]⟩, ⟨0, 0, []⟩] []).2.length ≤ 20 := by
    decide +kernel
  obtain ⟨-, -, filled, hpush, hdecodes⟩ := decodes_encodeAll hsizes hempty hfits
  exact ⟨filled, hpush, hdecodes 1⟩

end TopicBridge.Frame
