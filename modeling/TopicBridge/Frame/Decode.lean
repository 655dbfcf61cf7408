import TopicBridge.Frame.Encode
import TopicBridge.Ring

/-! Octets to frames. One look at the buffered octets yields a frame, an error or nothing yet,
and says how many octets it used up; the caller drops those and looks again. Octets that
cannot belong to a frame are used up on the way. -/
namespace TopicBridge.Frame

structure Look where
  result : Except FrameError (Option Frame)
  consumed : Nat

namespace Look

def waiting (consumed : Nat) : Look := ⟨.ok none, consumed⟩

def found (frame : Frame) (consumed : Nat) : Look := ⟨.ok (some frame), consumed⟩

def failed (cause : FrameError) (consumed : Nat) : Look := ⟨.error cause, consumed⟩

/-- The same outcome of a look that began `skipped` octets further on. -/
def after (skipped : Nat) (look : Look) : Look :=
  { look with consumed := skipped + look.consumed }

end Look

def checked (topic seq : UInt8) (expected : UInt16) (payload : Bytes) : Except FrameError Frame :=
  let actual := Checksum.crc16 payload
  if actual = expected then .ok ⟨topic, seq, payload⟩
  else .error (.crcMismatch topic expected actual)

/-- Reads the `px4` frame at the head of a list whose first three octets are the marker. -/
def marked (maxPayload : Nat) : Bytes → Except FrameError (Option Frame)
  | _ :: _ :: _ :: topic :: seq :: lengthHigh :: lengthLow :: checkHigh :: checkLow :: rest =>
      let length := (Bytes.toUInt16 lengthHigh lengthLow).toNat
      if maxPayload < length then .error (.payloadTooLarge length maxPayload)
      else if rest.length < length then .ok none
      else
        (checked topic seq (Bytes.toUInt16 checkHigh checkLow) (rest.take length)).map some
  | _ => .ok none

def markerRun : Bytes → Nat
  | 0x3E :: rest => markerRun rest + 1
  | _ => 0

theorem markerRun_le (s : Bytes) : markerRun s ≤ s.length := by
  fun_induction markerRun s with
  | case1 rest ih => simpa using ih
  | case2 => exact Nat.zero_le _

def markedLength (frame : Frame) : Nat := Protocol.headerLength .px4 + frame.payload.length

/-- One look for a `px4` frame. Without a marker all but a possible beginning of one is used
up. In a run of marker octets the first three are tried, then the last three; an error at the
first passes on to the last, and an error at the last uses up one octet. -/
def lookMarked (maxPayload : Nat) (s : Bytes) : Look :=
  match Bytes.offsetOf? marker s with
  | none => .waiting (s.length - min s.length (marker.length - 1))
  | some position =>
      let t := s.drop position
      let last := markerRun t - marker.length
      Look.after position <|
        match marked maxPayload t with
        | .ok (some frame) => .found frame frame.markedLength
        | .ok none =>
            if last = 0 then .waiting 0
            else
              match marked maxPayload (t.drop last) with
              | .ok (some frame) => .found frame (last + frame.markedLength)
              | _ => .waiting 0
        | .error cause =>
            if last = 0 then .failed cause 1
            else Look.after last (lookMarked maxPayload (t.drop last))
  termination_by s.length
  decreasing_by
    rename_i hlast
    have hrun : markerRun (s.drop position) ≤ (s.drop position).length := markerRun_le _
    have hpos : 0 < markerRun (s.drop position) - marker.length := Nat.pos_of_ne_zero hlast
    have hdrop : (s.drop position).length ≤ s.length := by simp
    show ((s.drop position).drop (markerRun (s.drop position) - marker.length)).length < s.length
    rw [List.length_drop]
    omega

def ofRecord (maxPayload : Nat) : Bytes → Except FrameError Frame
  | topic :: seq :: lengthHigh :: lengthLow :: checkHigh :: checkLow :: payload =>
      let length := (Bytes.toUInt16 lengthHigh lengthLow).toNat
      if length ≠ payload.length then .error (.lengthMismatch length payload.length)
      else if maxPayload < length then .error (.payloadTooLarge length maxPayload)
      else checked topic seq (Bytes.toUInt16 checkHigh checkLow) payload
  | short => .error (.truncated short.length (Protocol.headerLength .cobs))

def ofStuffed (maxPayload : Nat) (stuffed : Bytes) : Except FrameError Frame :=
  match Cobs.unstuff stuffed with
  | none => .error .stuffing
  | some data => ofRecord maxPayload data

/-- One look for a `cobs` frame. Empty records are passed over. A queue that is full and holds
no delimiter is used up whole, since its record can never complete. -/
def lookDelimited (capacity maxPayload : Nat) : Bytes → Look
  | [] => .waiting 0
  | b :: rest =>
      if b = delimiter then Look.after 1 (lookDelimited capacity maxPayload rest)
      else
        let s := b :: rest
        let stuffed := s.takeWhile (· ≠ delimiter)
        if stuffed.length < s.length then
          ⟨(ofStuffed maxPayload stuffed).map some, stuffed.length + 1⟩
        else if s.length = capacity then .failed (.payloadTooLarge s.length maxPayload) s.length
        else .waiting 0

def look (protocol : Protocol) (capacity maxPayload : Nat) (s : Bytes) : Look :=
  match protocol with
  | .px4 => lookMarked maxPayload s
  | .cobs => lookDelimited capacity maxPayload s

/-- One look at a queue, and the queue without the octets it used up. -/
def decode (protocol : Protocol) (maxPayload : Nat) (ring : Ring) :
    Except FrameError (Option Frame) × Ring :=
  let outcome := look protocol ring.capacity maxPayload ring.toList
  (outcome.result, ring.skip outcome.consumed)

end TopicBridge.Frame
