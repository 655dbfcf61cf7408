import TopicBridge.Proofs.Fitting
import TopicBridge.Proofs.Lossless
import TopicBridge.Proofs.Passage
import TopicBridge.Settings

/-! Settings that pass. What is accepted makes both ends of a framing, on any link, and these agree
on the payloads they carry; what is refused has one of four faults, and the first is named. -/
namespace TopicBridge

/-- The writer sends the payload in one frame unless the link refuses that, and the reader makes it
out of the frame again: at once if the frame comes in one chunk, and also if it comes in pieces,
though behind a marker not on the marker octet's own topic. -/
structure Carries (reader : Reader) (writer : Writer) (topic : UInt8) (payload : Bytes) : Prop where
  written : ∀ link : Link, writer.write link topic payload =
    match link.refusal (writer.wire topic payload).length with
    | none => (.ok payload.length, writer.advance payload.length,
        { link with sent := link.sent.push (writer.wire topic payload) })
    | some cause => (.error (.link cause), writer.drop, link)
  read : ∀ (link : Link) rest, link.closed = false →
    link.arrivals = .chunk (writer.wire topic payload) :: rest →
      (reader.readFrame link).1 = .ok (some ⟨topic, writer.nextSeq, payload⟩)
  gathered : (writer.config.protocol = .px4 → topic ≠ 0x3E) →
    ∀ link : Link, link.Whole (max writer.config.ringCapacity Link.maxDatagram) →
      link.octets = writer.wire topic payload → ∀ n, link.backlog < n →
        (Session.reads { reader, link } n).outcomes = [.ok ⟨topic, writer.nextSeq, payload⟩]

namespace FrameConfig
variable {config : FrameConfig} {payload : Bytes}

end FrameConfig

namespace Parameters
variable {params : Parameters} {name text : String}

theorem bind_eq_ok_iff {α β : Type} {first : Except BridgeError α} {more : α → Except BridgeError β}
    {b : β} : first >>= more = .ok b ↔ ∃ a, first = .ok a ∧ more a = .ok b := by
  cases first with
  | error cause => exact ⟨nofun, nofun⟩
  | ok a =>
      constructor
      · intro h
        exact ⟨a, rfl, h⟩
      · rintro ⟨_, ⟨⟩, h⟩
        exact h

theorem map_eq_ok_iff {α β : Type} {first : Except BridgeError α} {f : α → β} {b : β} :
    first.map f = .ok b ↔ ∃ a, first = .ok a ∧ f a = b := by
  cases first with
  | error cause => exact ⟨nofun, nofun⟩
  | ok a =>
      constructor
      · intro h
        exact ⟨a, rfl, Except.ok.inj h⟩
      · rintro ⟨_, ⟨⟩, rfl⟩
        rfl

/-- Under the name there is an integer, or the text of one. -/
def Integer (params : Parameters) (name : String) (n : Int) : Prop :=
  ∃ value m, params.find? name = some value ∧ value.asInt = some m ∧ m.toInt = n

theorem requireString_eq_ok_iff :
    params.requireString name = .ok text ↔ params.find? name = some (.string text) := by
  rw [requireString, require]
  cases params.find? name with
  | none => exact ⟨nofun, nofun⟩
  | some value => cases value <;> simp [stringOf, ParamValue.asString, bind, Except.bind]

theorem requireInt_eq_ok_iff {n : Int} :
    params.requireInt name = .ok n ↔ params.Integer name n := by
  rw [requireInt, require, Integer]
  cases params.find? name with
  | none => exact ⟨nofun, nofun⟩
  | some value =>
      change intOf name value = .ok n ↔ _
      rw [intOf]
      cases hint : value.asInt with
      | none => simp [hint]
      | some m => simp [hint]

/-- What fits 64 bits with a sign and is not below zero fits them without one. -/
theorem Integer.contains_iff {n : Int} (h : params.Integer name n) :
    (Text.IntegerRange.unsigned 64).contains n = true ↔ 0 ≤ n := by
  obtain ⟨_, m, -, -, rfl⟩ := h
  have hbound := m.toInt_lt
  rw [Text.IntegerRange.contains, Bool.and_eq_true, decide_eq_true_eq, decide_eq_true_eq]
  change 0 ≤ m.toInt ∧ m.toInt ≤ 18446744073709551615 ↔ _
  omega

theorem requireWithin_eq_ok_iff {n : Int} :
    params.requireWithin (.unsigned 64) name = .ok n ↔ params.Integer name n ∧ 0 ≤ n := by
  rw [requireWithin, bind_eq_ok_iff]
  constructor
  · rintro ⟨m, hint, hrange⟩
    have hinteger := requireInt_eq_ok_iff.mp hint
    rw [inRange] at hrange
    split at hrange
    · next hcontains =>
        cases hrange
        exact ⟨hinteger, hinteger.contains_iff.mp hcontains⟩
    · cases hrange
  · rintro ⟨hinteger, hnonneg⟩
    refine ⟨n, requireInt_eq_ok_iff.mpr hinteger, ?_⟩
    rw [inRange, if_pos (hinteger.contains_iff.mpr hnonneg)]

theorem requireNat_eq_ok_iff {n : Nat} :
    params.requireNat 64 name = .ok n ↔ params.Integer name n := by
  rw [requireNat, map_eq_ok_iff]
  simp only [requireWithin_eq_ok_iff]
  constructor
  · rintro ⟨m, ⟨hinteger, hnonneg⟩, rfl⟩
    rwa [Int.toNat_of_nonneg hnonneg]
  · intro hinteger
    exact ⟨n, ⟨hinteger, Int.natCast_nonneg n⟩, Int.toNat_natCast n⟩

theorem optionalWithin_eq_ok_iff {found : Option Int} :
    params.optionalWithin (.unsigned 64) name = .ok found ↔
      params.find? name = none ∧ found = none ∨
        ∃ n : Nat, params.Integer name n ∧ found = some (n : Int) := by
  rw [optionalWithin, OrderedMap.contains]
  cases hfind : params.find? name with
  | none => simp [Integer, hfind, eq_comm]
  | some value =>
      simp only [Option.isSome_some, if_true, map_eq_ok_iff, requireWithin_eq_ok_iff]
      constructor
      · rintro ⟨m, ⟨hinteger, hnonneg⟩, rfl⟩
        refine .inr ⟨m.toNat, ?_, ?_⟩
        · rwa [Int.toNat_of_nonneg hnonneg]
        · rw [Int.toNat_of_nonneg hnonneg]
      · rintro (⟨hnone, -⟩ | ⟨n, hinteger, rfl⟩)
        · cases hnone
        · exact ⟨n, ⟨hinteger, Int.natCast_nonneg n⟩, rfl⟩

/-- The parameters say what the settings are: the name of a protocol, integers that are not below
zero, of which the largest payload may be left open, and an integer of any size. -/
structure Gives (params : Parameters) (settings : Settings) : Prop where
  protocol : params.find? "serial_protocol" = some (.string settings.protocol.name)
  readPoll : params.Integer "read_poll_ms" settings.readPoll
  ringSize : params.Integer "ring_buffer_size" settings.ringSize
  writeSleep : params.Integer "write_sleep_ms" settings.writeSleep
  maxPayload : params.find? "max_payload" = none ∧ settings.maxPayload = 1024 ∨
    params.Integer "max_payload" settings.maxPayload
  mappingWait : params.Integer "dynamic_serial_mapping_ms" settings.mappingWait

end Parameters

namespace Settings
variable {params : Parameters} {settings : Settings} {cause : BridgeError}

theorem protocolOf_eq_ok_iff {name : String} {protocol : Protocol} :
    protocolOf name = .ok protocol ↔ name = protocol.name := by
  constructor
  · intro h
    unfold protocolOf Protocol.ofName? at h
    split at h
    · next hname =>
        split at hname
        · cases hname
          cases h
          rfl
        · cases hname
          cases h
          rfl
        · cases hname
    · cases h
  · rintro rfl
    cases protocol <;> rfl

/-- Settings that parameters say are still to be validated, and nothing else can go wrong. -/
theorem ofParameters_of_gives (h : params.Gives settings) :
    ofParameters params = settings.validate.map fun _ => settings := by
  obtain ⟨protocol, readPoll, ringSize, writeSleep, maxPayload, mappingWait⟩ := settings
  obtain ⟨found, hfound, hpayload⟩ : ∃ found,
      params.optionalWithin (.unsigned 64) "max_payload" = .ok found ∧
        (found.map Int.toNat).getD 1024 = maxPayload := by
    rcases h.maxPayload with ⟨hnone, hdefault⟩ | hinteger
    · exact ⟨none, Parameters.optionalWithin_eq_ok_iff.mpr (.inl ⟨hnone, rfl⟩), hdefault.symm⟩
    · exact ⟨some maxPayload, Parameters.optionalWithin_eq_ok_iff.mpr
        (.inr ⟨maxPayload, hinteger, rfl⟩), rfl⟩
  simp only [ofParameters, Parameters.requireString_eq_ok_iff.mpr h.protocol,
    protocolOf_eq_ok_iff.mpr rfl, Parameters.requireNat_eq_ok_iff.mpr h.readPoll,
    Parameters.requireNat_eq_ok_iff.mpr h.ringSize,
    Parameters.requireNat_eq_ok_iff.mpr h.writeSleep, hfound,
    Parameters.requireInt_eq_ok_iff.mpr h.mappingWait, bind, Except.bind, hpayload]
  cases validate ⟨protocol, readPoll, ringSize, writeSleep, maxPayload, mappingWait⟩ <;> rfl

theorem ofParameters_eq_ok_iff :
    ofParameters params = .ok settings ↔ params.Gives settings ∧ settings.validate = .ok () := by
  constructor
  · simp only [ofParameters, Parameters.bind_eq_ok_iff, Parameters.requireString_eq_ok_iff,
      protocolOf_eq_ok_iff, Parameters.requireNat_eq_ok_iff, Parameters.requireInt_eq_ok_iff,
      Parameters.optionalWithin_eq_ok_iff]
    rintro ⟨name, hname, protocol, rfl, readPoll, hpoll, ringSize, hring, writeSleep, hsleep,
      found, hfound, mappingWait, hwait, ⟨⟩, hvalid, h⟩
    cases h
    refine ⟨⟨hname, hpoll, hring, hsleep, ?_, hwait⟩, hvalid⟩
    rcases hfound with ⟨hnone, rfl⟩ | ⟨n, hinteger, rfl⟩
    · exact .inl ⟨hnone, rfl⟩
    · exact .inr hinteger
  · rintro ⟨hgives, hvalid⟩
    rw [ofParameters_of_gives hgives, hvalid]
    rfl

/-- The queue holds no frame with a payload of one octet. -/
def Cramped (settings : Settings) : Prop :=
  ∀ frame : Frame, frame.payload.length = 1 →
    settings.ringSize < (frame.wire settings.protocol).length

/-- Nothing is wrong with the settings. -/
structure Sane (settings : Settings) : Prop where
  readPoll : settings.readPoll ≠ 0
  writeSleep : settings.writeSleep ≠ 0
  maxPayload : settings.maxPayload ≠ 0
  ringSize : ¬ settings.Cramped

def shortage (settings : Settings) : FrameError :=
  .config s!"ring buffer of {settings.ringSize} bytes cannot hold a {settings.protocol.maxWireLength 1} byte {settings.protocol.name} frame"

/-- What is wrong with the settings first, by the name of the parameter. -/
inductive Faulty (settings : Settings) : BridgeError → Prop
  | readPoll : settings.readPoll = 0 →
      Faulty settings (.invalidParameter "read_poll_ms" "must be greater than zero")
  | writeSleep : settings.readPoll ≠ 0 → settings.writeSleep = 0 →
      Faulty settings (.invalidParameter "write_sleep_ms" "must be greater than zero")
  | maxPayload : settings.readPoll ≠ 0 → settings.writeSleep ≠ 0 → settings.maxPayload = 0 →
      Faulty settings (.invalidParameter "max_payload" "must be greater than zero")
  | ringSize : settings.readPoll ≠ 0 → settings.writeSleep ≠ 0 → settings.maxPayload ≠ 0 →
      settings.Cramped →
      Faulty settings (.invalidParameter "ring_buffer_size" settings.shortage.message)

theorem cramped_iff :
    settings.Cramped ↔ settings.ringSize < settings.protocol.maxWireLength 1 := by
  have hlength : ∀ frame : Frame, frame.payload.length = 1 →
      (frame.wire settings.protocol).length = settings.protocol.maxWireLength 1 := by
    intro frame hone
    rw [Frame.length_wire_of_short (by omega), hone]
  constructor
  · intro h
    rw [← hlength ⟨0, 0, [0]⟩ rfl]
    exact h _ rfl
  · intro h frame hone
    rwa [hlength frame hone]

theorem positive_of_ne_zero {name : String} {value : Nat} (h : value ≠ 0) :
    positive name value = .ok () := by
  rw [positive, if_neg h]

theorem isZero_ofMillis {n : Nat} (h : n ≠ 0) : (Duration.ofMillis n).isZero = false := by
  have hproduct : n * 1000000 ≠ 0 := Nat.mul_ne_zero h (by decide)
  exact beq_eq_false_iff_ne.mpr hproduct

theorem Cramped.validate_frameConfig (h : settings.Cramped) :
    settings.frameConfig.validate = .error settings.shortage := by
  rw [FrameConfig.validate]
  exact if_pos (cramped_iff.mp h)

theorem Sane.validate_frameConfig (h : settings.Sane) : settings.frameConfig.validate = .ok () := by
  have hring : ¬ settings.ringSize < settings.protocol.maxWireLength 1 :=
    fun hsmall => h.ringSize (cramped_iff.mpr hsmall)
  have hpoll := isZero_ofMillis h.readPoll
  rw [FrameConfig.validate]
  simp only [frameConfig, hring, h.maxPayload, hpoll, if_false, Bool.false_eq_true]

theorem Sane.validate (h : settings.Sane) : settings.validate = .ok () := by
  rw [Settings.validate, positive_of_ne_zero h.readPoll, positive_of_ne_zero h.writeSleep,
    positive_of_ne_zero h.maxPayload, h.validate_frameConfig]
  rfl

theorem Faulty.validate (h : settings.Faulty cause) : settings.validate = .error cause := by
  rw [Settings.validate]
  cases h with
  | readPoll hpoll =>
      rw [positive, if_pos hpoll]
      rfl
  | writeSleep hpoll hsleep =>
      rw [positive_of_ne_zero hpoll, positive, if_pos hsleep]
      rfl
  | maxPayload hpoll hsleep hpayload =>
      rw [positive_of_ne_zero hpoll, positive_of_ne_zero hsleep, positive, if_pos hpayload]
      rfl
  | ringSize hpoll hsleep hpayload hcramped =>
      rw [positive_of_ne_zero hpoll, positive_of_ne_zero hsleep, positive_of_ne_zero hpayload,
        hcramped.validate_frameConfig]
      rfl

def narrow (ringSize : Int64) : Parameters :=
  .ofList [("serial_protocol", .string "px4"), ("read_poll_ms", .int 1),
    ("ring_buffer_size", .int ringSize), ("write_sleep_ms", .string "1"),
    ("dynamic_serial_mapping_ms", .int 0)]

end Settings
end TopicBridge
