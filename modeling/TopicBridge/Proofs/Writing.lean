import TopicBridge.Endpoint
import TopicBridge.Proofs.Sizes

/-! What a write can come to. It puts one frame with the next number on the link, or else the
payload is too long or the link refuses the frame, and link and number stay as they are. -/
namespace TopicBridge
namespace Writer

/-- The octets of a frame with the next number. -/
def wire (writer : Writer) (topic : UInt8) (payload : Bytes) : Bytes :=
  Frame.wire writer.config.protocol ⟨topic, writer.nextSeq, payload⟩

/-- All that a write can come to. -/
inductive Writes (writer : Writer) (link : Link) (topic : UInt8) (payload : Bytes) :
    Except FrameError Nat × Writer × Link → Prop
  | tooLong : writer.maxPayload < payload.length →
      Writes writer link topic payload
        (.error (.payloadTooLarge payload.length writer.maxPayload), writer.drop, link)
  | refused {cause : LinkError} : payload.length ≤ writer.maxPayload →
      link.refusal (writer.wire topic payload).length = some cause →
      Writes writer link topic payload (.error (.link cause), writer.drop, link)
  | written : payload.length ≤ writer.maxPayload →
      link.refusal (writer.wire topic payload).length = none →
      Writes writer link topic payload
        (.ok payload.length, writer.advance payload.length,
         { link with sent := link.sent.push (writer.wire topic payload) })

theorem encodeOnto_of_le {writer : Writer} {payload : Bytes}
    (hsize : payload.length ≤ writer.maxPayload) (topic : UInt8) :
    Frame.encodeOnto writer.config.protocol ⟨topic, writer.nextSeq, payload⟩ [] =
      (.ok (), writer.wire topic payload) :=
  Frame.encodeOnto_of_le (Nat.le_trans hsize writer.config.effectiveMaxPayload_le_maxLength) []

theorem writes_write (writer : Writer) (link : Link) (topic : UInt8) (payload : Bytes) :
    writer.Writes link topic payload (writer.write link topic payload) := by
  rw [write]
  by_cases hlong : writer.maxPayload < payload.length
  · rw [if_pos hlong]
    exact .tooLong hlong
  · have hsize := Nat.not_lt.mp hlong
    rw [if_neg hlong, encodeOnto_of_le hsize]
    dsimp only
    rw [Link.send]
    cases hrefusal : link.refusal (writer.wire topic payload).length with
    | some cause => exact .refused hsize hrefusal
    | none => exact .written hsize hrefusal

theorem write_of_le {writer : Writer} {payload : Bytes}
    (hsize : payload.length ≤ writer.maxPayload) (link : Link) (topic : UInt8) :
    writer.write link topic payload =
      match link.refusal (writer.wire topic payload).length with
      | none => (.ok payload.length, writer.advance payload.length,
          { link with sent := link.sent.push (writer.wire topic payload) })
      | some cause => (.error (.link cause), writer.drop, link) := by
  have hwrites := writer.writes_write link topic payload
  generalize writer.write link topic payload = answer at hwrites ⊢
  cases hwrites with
  | tooLong hlong => exact absurd hsize (Nat.not_le.mpr hlong)
  | refused _ hrefusal => rw [hrefusal]
  | written _ htakes => rw [htakes]

end Writer

namespace Endpoint
variable {endpoint : Endpoint} {topic : UInt8} {payload : Bytes}

def wire (endpoint : Endpoint) (topic : UInt8) (payload : Bytes) : Bytes :=
  Frame.wire endpoint.writer.config.protocol ⟨topic, endpoint.writer.nextSeq, payload⟩

inductive Writes (endpoint : Endpoint) (topic : UInt8) (payload : Bytes) :
    Except FrameError Nat × Endpoint → Prop
  | tooLong : endpoint.writer.maxPayload < payload.length →
      Writes endpoint topic payload
        (.error (.payloadTooLarge payload.length endpoint.writer.maxPayload),
         { endpoint with writer := endpoint.writer.drop })
  | refused {cause : LinkError} : payload.length ≤ endpoint.writer.maxPayload →
      endpoint.link.refusal (endpoint.wire topic payload).length = some cause →
      Writes endpoint topic payload
        (.error (.link cause), { endpoint with writer := endpoint.writer.drop })
  | written : payload.length ≤ endpoint.writer.maxPayload →
      endpoint.link.refusal (endpoint.wire topic payload).length = none →
      Writes endpoint topic payload
        (.ok payload.length,
         { endpoint with
           writer := endpoint.writer.advance payload.length
           link := { endpoint.link with
             sent := endpoint.link.sent.push (endpoint.wire topic payload) } })

theorem writes_write (endpoint : Endpoint) (topic : UInt8) (payload : Bytes) :
    endpoint.Writes topic payload (endpoint.write topic payload) := by
  have hwrites := endpoint.writer.writes_write endpoint.link topic payload
  rw [write]
  generalize endpoint.writer.write endpoint.link topic payload = answer at hwrites ⊢
  cases hwrites with
  | tooLong hlong => exact .tooLong hlong
  | refused hsize hrefusal => exact .refused hsize hrefusal
  | written hsize htakes => exact .written hsize htakes

variable {answer : Except FrameError Nat × Endpoint}

theorem Writes.config_eq (h : endpoint.Writes topic payload answer) :
    answer.2.writer.config = endpoint.writer.config := by
  cases h with
  | tooLong | refused | written => rfl

theorem Writes.of_lt (h : endpoint.Writes topic payload answer)
    (hlong : endpoint.writer.maxPayload < payload.length) :
    answer = (.error (.payloadTooLarge payload.length endpoint.writer.maxPayload),
      { endpoint with writer := endpoint.writer.drop }) := by
  cases h with
  | tooLong => rfl
  | refused hsize | written hsize => exact absurd hlong (Nat.not_lt.mpr hsize)

theorem Writes.of_refusal (h : endpoint.Writes topic payload answer) {cause : LinkError}
    (hsize : payload.length ≤ endpoint.writer.maxPayload)
    (hrefusal : endpoint.link.refusal (endpoint.wire topic payload).length = some cause) :
    answer = (.error (.link cause), { endpoint with writer := endpoint.writer.drop }) := by
  cases h with
  | tooLong hlong => exact absurd hlong (Nat.not_lt.mpr hsize)
  | refused _ hother => rw [Option.some.inj (hrefusal.symm.trans hother)]
  | written _ hnone => cases hrefusal.symm.trans hnone

theorem Writes.of_takes (h : endpoint.Writes topic payload answer)
    (hsize : payload.length ≤ endpoint.writer.maxPayload)
    (htakes : endpoint.link.refusal (endpoint.wire topic payload).length = none) :
    answer = (.ok payload.length,
      { endpoint with
        writer := endpoint.writer.advance payload.length
        link := { endpoint.link with
          sent := endpoint.link.sent.push (endpoint.wire topic payload) } }) := by
  cases h with
  | tooLong hlong => exact absurd hlong (Nat.not_lt.mpr hsize)
  | refused _ hrefusal => cases htakes.symm.trans hrefusal
  | written => rfl

end Endpoint
end TopicBridge
