import TopicBridge.Proofs.Scanning

/-! Negotiation messages read from octets. A message is read from data that starts with one of its
layouts and from no other data. Since the octets written for it are one of them, they are read
back whatever follows them, and no cut of them is taken for a message. -/
namespace TopicBridge.MappingMessage
open Cdr

/-- The four fields in order, each by the reader for its kind. -/
def readFields (texts : String → Parse (List String)) (octets : String → Parse Bytes) :
    Parse MappingMessage :=
  (texts "topic_names").andThen fun names =>
    (octets "serial_mappings").andThen fun ids =>
      (texts "types").andThen fun types =>
        (octets "direction").andThen fun directions cursor =>
          .ok ({ names, ids, types, directions }, cursor)

/-- A message read item by item, with no bound on any count. -/
def readItems (data : Bytes) : Except Fault MappingMessage :=
  (readFields readCountedTexts readCountedOctets ⟨0, data⟩).map Prod.fst

def scanFields (data : Bytes) : Scan MappingMessage := fun position => do
  let (names, position) ← scanTextSequence data "topic_names" position
  let (ids, position) ← scanOctetSequence data "serial_mappings" position
  let (types, position) ← scanTextSequence data "types" position
  let (directions, position) ← scanOctetSequence data "direction" position
  pure ({ names, ids, types, directions }, position)

/-- A message read by positions, where each step is checked. -/
def scan? (data : Bytes) : Option (Except Fault MappingMessage) :=
  (scanFields data 0).run.map fun outcome => outcome.map Prod.fst

theorem read_eq (data : Bytes) :
    read data = (readFields readTextSequence readOctetSequence ⟨0, data⟩).map Prod.fst := by
  change _ = Prod.fst <$> readFields readTextSequence readOctetSequence ⟨0, data⟩
  simp only [readFields, Parse.andThen, map_bind]
  rfl

theorem accepts_readFields {texts : String → Parse (List String)} {octets : String → Parse Bytes}
    (htexts : ∀ what, Accepts (texts what) TextSequenceAt)
    (hoctets : ∀ what, Accepts (octets what) OctetSequenceAt) :
    Accepts (readFields texts octets) LaidOutAt := by
  refine ((htexts _).andThen fun names => (hoctets _).andThen fun ids =>
    (htexts _).andThen fun types => (hoctets _).andThen fun directions =>
      accepts_ok (MappingMessage.mk names ids types directions)).of_iff ?_
  intro position message octets
  constructor
  · intro h
    cases h with
    | @inOrder a b c d hnames hids htypes hdirections =>
        exact ⟨_, a, _, hnames, ⟨_, b, _, hids, ⟨_, c, _, htypes, ⟨_, d, [], hdirections,
          ⟨rfl, rfl⟩, (List.append_nil d).symm⟩, rfl⟩, rfl⟩, rfl⟩
  · rintro ⟨names, a, _, hnames, ⟨ids, b, _, hids, ⟨types, c, _, htypes, ⟨directions, d, _,
      hdirections, ⟨rfl, rfl⟩, rfl⟩, rfl⟩, rfl⟩, rfl⟩
    rw [List.append_nil]
    exact .inOrder hnames hids htypes hdirections

/-- The value is read from the start of the data if and only if a form of it stands there. -/
theorem map_fst_eq_ok {α : Type} {parse : Parse α} {form : Form α} (h : Accepts parse form)
    {data : Bytes} {a : α} :
    (parse ⟨0, data⟩).map Prod.fst = .ok a ↔ ∃ octets, form 0 a octets ∧ octets <+: data := by
  constructor
  · intro hread
    cases hparse : parse ⟨0, data⟩ with
    | error fault =>
        rw [hparse] at hread
        cases hread
    | ok result =>
        rw [hparse] at hread
        cases hread
        obtain ⟨octets, hform, hrest, _⟩ := (h _ _ _).mp hparse
        exact ⟨octets, hform, result.2.rest, hrest.symm⟩
  · rintro ⟨octets, hform, rest, rfl⟩
    rw [(h _ a ⟨0 + octets.length, rest⟩).mpr ⟨octets, hform, rfl, rfl⟩]
    rfl

theorem read_eq_ok_iff {data : Bytes} {message : MappingMessage} :
    read data = .ok message ↔ ∃ octets, message.LaidOutAt 0 octets ∧ octets <+: data := by
  rw [read_eq]
  exact map_fst_eq_ok (accepts_readFields accepts_readTextSequence accepts_readOctetSequence)

theorem readItems_eq_ok_iff {data : Bytes} {message : MappingMessage} :
    readItems data = .ok message ↔ ∃ octets, message.LaidOutAt 0 octets ∧ octets <+: data :=
  map_fst_eq_ok (accepts_readFields accepts_readCountedTexts accepts_readCountedOctets)

/-- A layout of one message is no start of a layout of another one, nor of another of its own. -/
theorem LaidOutAt.unique {position : Nat} {message message' : MappingMessage}
    {octets octets' data : Bytes} (h : message.LaidOutAt position octets)
    (h' : message'.LaidOutAt position octets') (hdata : octets <+: data)
    (hdata' : octets' <+: data) :
    message = message' ∧ octets = octets' := by
  obtain ⟨rest, rfl⟩ := hdata
  obtain ⟨rest', hsame⟩ := hdata'
  exact (accepts_readFields accepts_readTextSequence accepts_readOctetSequence).unique h h'
    hsame.symm

theorem decode_eq_ok_iff {data : Bytes} {message : MappingMessage} :
    decode data = .ok message ↔ read data = .ok message := by
  unfold decode
  cases read data with
  | error fault =>
      constructor
      · rintro ⟨⟩
      · rintro ⟨⟩
  | ok m =>
      constructor
      · rintro ⟨⟩
        rfl
      · rintro ⟨⟩
        rfl

/-- Nothing else comes of data than a message or the fault that it is malformed. -/
theorem decode_malformed {data : Bytes}
    (h : ∀ (message : MappingMessage) octets, message.LaidOutAt 0 octets → ¬ octets <+: data) :
    ∃ reason, decode data = .error (.malformedNegotiation reason) := by
  unfold decode
  cases hread : read data with
  | error fault => exact ⟨fault.message, rfl⟩
  | ok message =>
      obtain ⟨octets, hlaid, hdata⟩ := read_eq_ok_iff.mp hread
      exact absurd hdata (h message octets hlaid)

theorem tracks_readFields {data : Bytes} :
    Tracks data (scanFields data) (readFields readTextSequence readOctetSequence) :=
  (tracks_readTextSequence _).andThen fun names =>
    (tracks_readOctetSequence _).andThen fun ids =>
      (tracks_readTextSequence _).andThen fun types =>
        (tracks_readOctetSequence _).andThen fun directions =>
          tracks_pure (MappingMessage.mk names ids types directions)

theorem scan?_eq (data : Bytes) : scan? data = some (read data) := by
  have hagree := tracks_readFields 0 (Nat.zero_le data.length)
  rw [List.drop_zero] at hagree
  rw [read_eq, scan?]
  generalize scanFields data 0 = scan, readFields _ _ ⟨0, data⟩ = result at hagree ⊢
  cases hagree with
  | fault fault => rfl
  | value message hposition => rfl

/-- Data is read as a message if and only if it starts with a layout of it, and is malformed
otherwise. The bound on the counts turns no message away, no step of the reading is outside of the
data, and what is read is never more than the data. -/
theorem decode_reads_layouts (data : Bytes) :
    (∀ message, decode data = .ok message ↔
        ∃ octets, message.LaidOutAt 0 octets ∧ octets <+: data) ∧
      ((∀ (message : MappingMessage) octets, message.LaidOutAt 0 octets → ¬ octets <+: data) →
        ∃ reason, decode data = .error (.malformedNegotiation reason)) ∧
      (∀ message, readItems data = .ok message → decode data = .ok message) ∧
      scan? data = some (read data) ∧
      ∀ message, decode data = .ok message → message.load ≤ data.length := by
  refine ⟨?_, decode_malformed, ?_, scan?_eq data, ?_⟩
  · intro message
    rw [decode_eq_ok_iff, read_eq_ok_iff]
  · intro message hitems
    exact decode_eq_ok_iff.mpr (read_eq_ok_iff.mpr (readItems_eq_ok_iff.mp hitems))
  · intro message hdecode
    obtain ⟨octets, hlaid, hdata⟩ := read_eq_ok_iff.mp (decode_eq_ok_iff.mp hdecode)
    exact Nat.le_trans hlaid.load_le hdata.length_le

/-- Padding of any octets, a text without its final zero, and octets behind the message. -/
example : decode [1, 0, 0, 0, 0, 0, 0, 0, 1, 0, 0, 0, 7, 9, 9, 9, 0, 0, 0, 0, 0, 0, 0, 0, 5] =
    .ok { names := [""], ids := [7] } := rfl

theorem decode_encode {message : MappingMessage} (h : message.Fits) :
    decode message.encode = .ok message :=
  decode_eq_ok_iff.mpr (read_eq_ok_iff.mpr ⟨message.encode, laidOutAt_encode h, List.prefix_rfl⟩)

/-- What is written for a message is read back whatever follows it, and no shorter start of it is
taken for a message. -/
theorem encode_self_delimiting (message : MappingMessage) (h : message.Fits) :
    (∀ behind, decode (message.encode ++ behind) = .ok message) ∧
      ∀ cut, cut <+: message.encode → cut ≠ message.encode →
        ∃ reason, decode cut = .error (.malformedNegotiation reason) := by
  have hlaid := laidOutAt_encode h
  constructor
  · intro behind
    rw [decode_eq_ok_iff, read_eq_ok_iff]
    exact ⟨message.encode, hlaid, List.prefix_append _ _⟩
  · intro cut hcut hne
    apply decode_malformed
    intro other octets hother hoctets
    obtain ⟨_, rfl⟩ := hother.unique hlaid (hoctets.trans hcut) List.prefix_rfl
    exact hne (hcut.eq_of_length_le hoctets.length_le)

/-- A text with a zero in it, one of several octets for a character, and sequences of unequal
lengths. -/
def uneven : MappingMessage :=
  { names := ["a\x00b", "é"], ids := [5, 0, 255], types := [""], directions := [1, 0] }

theorem encode_self_delimiting_uneven :
    uneven.Fits ∧ decode (uneven.encode ++ [0, 7]) = .ok uneven ∧
      uneven.encode.take 21 <+: uneven.encode ∧ uneven.encode.take 21 ≠ uneven.encode ∧
      ∃ reason, decode (uneven.encode.take 21) = .error (.malformedNegotiation reason) := by
  have hfits : uneven.Fits := by
    constructor <;> decide
  have hcut : uneven.encode.take 21 <+: uneven.encode := List.take_prefix _ _
  have hne : uneven.encode.take 21 ≠ uneven.encode := by
    intro hsame
    have hlength := congrArg List.length hsame
    revert hlength
    decide +kernel
  obtain ⟨hwhole, hpart⟩ := encode_self_delimiting uneven hfits
  exact ⟨hfits, hwhole [0, 7], hcut, hne, hpart _ hcut hne⟩

end TopicBridge.MappingMessage
