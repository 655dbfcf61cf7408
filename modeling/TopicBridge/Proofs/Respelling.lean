import Mathlib.Data.List.Forall2
import TopicBridge.Proofs.Numerals
import TopicBridge.Proofs.TopicKeys
import TopicBridge.Settings

/-! Integers of the startup parameters as texts. A parameter that is read as an integer may be given
as the text of one, with the same outcome for the settings, for the link and for the topics. -/
namespace TopicBridge
variable {params other : Parameters} {key topic setting : String} {value image : ParamValue}

namespace Parameters

/-- The names of the integers among the settings of the bridge and of its link. -/
def integerKeys : List String :=
  ["baudrate", "recv_port", "send_port", "read_poll_ms", "ring_buffer_size", "write_sleep_ms",
    "dynamic_serial_mapping_ms", "max_payload"]

/-- The parameter names under which an integer is read: one for each topic and a few others. -/
def IsIntegerKey (key : String) : Prop :=
  key ∈ integerKeys ∨ ∃ topic, key = Table.keyOf topic "serial_mapping"

/-- What may stand in the place of a value: the value itself, and for an integer also its text, with
white space around it, if an integer is read there. -/
inductive Respelt (key : String) : ParamValue → ParamValue → Prop
  | same (value : ParamValue) : Respelt key value value
  | text {n : Int64} {core : List Char} {text : String} : IsIntegerKey key →
      Text.Spells n.toInt core → Text.BetweenBlanks core text.toList →
      Respelt key (.int n) (.string text)

/-- The same names, and in the place of each value one that may stand there. -/
def Respells (params other : Parameters) : Prop :=
  List.Forall₂ (fun entry image => image.1 = entry.1 ∧ Respelt entry.1 entry.2 image.2)
    params.entries other.entries

theorem Respelt.asInt_eq (h : Respelt key value image) : image.asInt = value.asInt := by
  cases h with
  | same => rfl
  | text _ hspells hblanks => exact Text.int64?_trim_of_spells hspells hblanks

theorem Respelt.intOf_eq (h : Respelt key value image) : intOf key image = intOf key value := by
  cases h with
  | same => rfl
  | text hkey hspells hblanks =>
      rw [intOf, intOf, (Respelt.text hkey hspells hblanks).asInt_eq]
      rfl

theorem Respelt.eq_of_not_isIntegerKey (h : Respelt key value image) (hkey : ¬ IsIntegerKey key) :
    image = value := by
  cases h with
  | same => rfl
  | text hinteger => exact absurd hinteger hkey

/-- A name without `topics.` in front is that of an integer only if it is listed. -/
theorem isIntegerKey_iff (h : ¬ "topics.".toList <+: key.toList) :
    IsIntegerKey key ↔ key ∈ integerKeys := by
  refine or_iff_left ?_
  rintro ⟨topic, rfl⟩
  exact h (Table.prefix_keyOf topic _)

/-- No text is read as an integer where the type or the direction of a topic stands. -/
theorem not_isIntegerKey_keyOf (h : setting = "type" ∨ setting = "direction") :
    ¬ IsIntegerKey (Table.keyOf topic setting) := by
  rintro (hlisted | ⟨other, heq⟩)
  · have hnone : ∀ key ∈ integerKeys, ¬ "topics.".toList <+: key.toList := by decide
    exact hnone _ hlisted (Table.prefix_keyOf topic setting)
  · have hsetting := Table.suffix_keyOf topic setting
    rw [heq] at hsetting
    have hmapping := Table.suffix_keyOf other "serial_mapping"
    rcases h with rfl | rfl
    · exact absurd (List.suffix_of_suffix_length_le hsetting hmapping (by decide)) (by decide)
    · exact absurd (List.suffix_of_suffix_length_le hsetting hmapping (by decide)) (by decide)

namespace Respells

theorem keys_eq (h : Respells params other) : other.keys = params.keys := by
  rw [OrderedMap.keys, OrderedMap.keys]
  rw [Respells] at h
  generalize params.entries = entries, other.entries = images at h ⊢
  induction h with
  | nil => rfl
  | cons hentry _ ih => rw [List.map_cons, List.map_cons, hentry.1, ih]

/-- Under any name there is nothing in either, or there is what may stand there. -/
theorem find?_cases (h : Respells params other) (key : String) :
    (params.find? key = none ∧ other.find? key = none) ∨
      ∃ value image, params.find? key = some value ∧ other.find? key = some image ∧
        Respelt key value image := by
  rw [OrderedMap.find?, OrderedMap.find?]
  rw [Respells] at h
  generalize params.entries = entries, other.entries = images at h ⊢
  induction h with
  | nil => exact .inl ⟨rfl, rfl⟩
  | @cons entry image _ _ hentry _ ih =>
      obtain ⟨hname, hvalue⟩ := hentry
      rw [List.find?_cons, List.find?_cons, hname]
      by_cases hkey : entry.1 = key
      · subst hkey
        simp only [decide_true]
        exact .inr ⟨entry.2, image.2, rfl, rfl, hvalue⟩
      · simp only [hkey, decide_false]
        exact ih

theorem contains_eq (h : Respells params other) (key : String) :
    other.contains key = params.contains key := by
  rw [OrderedMap.contains, OrderedMap.contains]
  rcases h.find?_cases key with ⟨hnone, hother⟩ | ⟨value, image, hsome, hother, -⟩
  · rw [hnone, hother]
  · rw [hsome, hother]
    rfl

theorem find?_eq (h : Respells params other) (hkey : ¬ IsIntegerKey key) :
    other.find? key = params.find? key := by
  rcases h.find?_cases key with ⟨hnone, hother⟩ | ⟨value, image, hsome, hother, hvalue⟩
  · rw [hnone, hother]
  · rw [hsome, hother, hvalue.eq_of_not_isIntegerKey hkey]

/-- Whatever the name, the integer there is the same, and so is the error if there is none. -/
theorem requireInt_eq (h : Respells params other) (key : String) :
    other.requireInt key = params.requireInt key := by
  rw [requireInt, requireInt, require, require]
  rcases h.find?_cases key with ⟨hnone, hother⟩ | ⟨value, image, hsome, hother, hvalue⟩
  · rw [hnone, hother]
  · rw [hsome, hother]
    exact hvalue.intOf_eq

theorem requireWithin_eq (h : Respells params other) (range : Text.IntegerRange) (key : String) :
    other.requireWithin range key = params.requireWithin range key := by
  rw [requireWithin, requireWithin, h.requireInt_eq]

theorem requireNat_eq (h : Respells params other) (bits : Nat) (key : String) :
    other.requireNat bits key = params.requireNat bits key := by
  rw [requireNat, requireNat, h.requireWithin_eq]

theorem optionalWithin_eq (h : Respells params other) (range : Text.IntegerRange) (key : String) :
    other.optionalWithin range key = params.optionalWithin range key := by
  rw [optionalWithin, optionalWithin, h.contains_eq, h.requireWithin_eq]

theorem requireString_eq (h : Respells params other) (hkey : ¬ IsIntegerKey key) :
    other.requireString key = params.requireString key := by
  rw [requireString, requireString, require, require, h.find?_eq hkey]

theorem optionalString_eq (h : Respells params other) (hkey : ¬ IsIntegerKey key) :
    other.optionalString key = params.optionalString key := by
  rw [optionalString, optionalString, h.find?_eq hkey]

theorem settings_eq (h : Respells params other) :
    Settings.ofParameters other = Settings.ofParameters params := by
  have hprotocol : ¬ IsIntegerKey "serial_protocol" := by
    rw [isIntegerKey_iff (by decide)]
    decide
  simp only [Settings.ofParameters, h.requireString_eq hprotocol, h.requireNat_eq,
    h.optionalWithin_eq, h.requireInt_eq]

theorem linkAddress_eq (h : Respells params other) :
    LinkAddress.ofParameters other = LinkAddress.ofParameters params := by
  have htransport : ¬ IsIntegerKey "transport" := by
    rw [isIntegerKey_iff (by decide)]
    decide
  have hdevice : ¬ IsIntegerKey "device" := by
    rw [isIntegerKey_iff (by decide)]
    decide
  simp only [LinkAddress.ofParameters, h.optionalString_eq htransport, h.requireString_eq hdevice,
    h.requireNat_eq]

theorem read_eq (h : Respells params other) (hkey : Table.topicKey? key = some (topic, setting))
    (draft : Table.Draft) :
    draft.read other key topic setting = draft.read params key topic setting := by
  obtain ⟨rfl, -, -⟩ := Table.topicKey?_eq_some_iff.mp hkey
  unfold Table.Draft.read
  split
  · rw [h.requireNat_eq]
  · rw [h.requireString_eq (not_isIntegerKey_keyOf (.inl rfl))]
  · rw [h.requireString_eq (not_isIntegerKey_keyOf (.inr rfl))]
  · rfl

theorem draftKey_eq (h : Respells params other) : Table.draftKey other = Table.draftKey params := by
  funext drafts key
  rw [Table.draftKey, Table.draftKey]
  cases hkey : Table.topicKey? key with
  | none => rfl
  | some pair =>
      dsimp only
      rw [h.read_eq hkey]

theorem table_eq (h : Respells params other) :
    Table.ofParameters other = Table.ofParameters params := by
  rw [Table.ofParameters, Table.ofParameters, h.keys_eq, h.draftKey_eq]

end Respells

/-- Integers may be given as text. If in the place of any integers, under the names where integers
are read, there are their decimal texts, with a sign or not, with any number of zeros in front and
with any white space around, then the settings, the address of the link and the table of topics are
the same, or the same error comes up in their stead. -/
theorem integers_as_text (h : Respells params other) :
    Settings.ofParameters other = Settings.ofParameters params ∧
    LinkAddress.ofParameters other = LinkAddress.ofParameters params ∧
    Table.ofParameters other = Table.ofParameters params :=
  ⟨h.settings_eq, h.linkAddress_eq, h.table_eq⟩

/-- Parameters with integers of which one is out of its range. -/
def plainIntegers : Parameters :=
  ⟨[("device", .string "::1"), ("dynamic_serial_mapping_ms", .int (-1)), ("read_poll_ms", .int 100),
    ("recv_port", .int Int64.minValue), ("ring_buffer_size", .int 64), ("send_port", .int 7),
    ("serial_protocol", .string "cobs"), ("topics.pose.direction", .string "SerialToROS2"),
    ("topics.pose.serial_mapping", .int 0), ("topics.pose.type", .string "Pose"),
    ("transport", .string "udp"), ("write_sleep_ms", .int 10)], by decide⟩

def spelledIntegers : Parameters :=
  ⟨[("device", .string "::1"), ("dynamic_serial_mapping_ms", .string "-01\n"),
    ("read_poll_ms", .string " +0100\u2003"), ("recv_port", .string "-9223372036854775808"),
    ("ring_buffer_size", .string "\u008564"), ("send_port", .int 7),
    ("serial_protocol", .string "cobs"), ("topics.pose.direction", .string "SerialToROS2"),
    ("topics.pose.serial_mapping", .string "\t+00 "), ("topics.pose.type", .string "Pose"),
    ("transport", .string "udp"), ("write_sleep_ms", .string "0000010")], by decide⟩

theorem respells_spelledIntegers : Respells plainIntegers spelledIntegers := by
  have hwait : Respelt "dynamic_serial_mapping_ms" (.int (-1)) (.string "-01\n") :=
    .text (.inl (by decide)) (.minus 1 1) ⟨[], ['\n'], by decide, by decide, rfl⟩
  have hpoll : Respelt "read_poll_ms" (.int 100) (.string " +0100\u2003") :=
    .text (.inl (by decide)) (.plus 1 100) ⟨[' '], ['\u2003'], by decide, by decide, rfl⟩
  have hport : Respelt "recv_port" (.int Int64.minValue) (.string "-9223372036854775808") :=
    .text (.inl (by decide)) (.minus 0 9223372036854775808) ⟨[], [], by decide, by decide, rfl⟩
  have hring : Respelt "ring_buffer_size" (.int 64) (.string "\u008564") :=
    .text (.inl (by decide)) (.unsigned 0 64) ⟨['\u0085'], [], by decide, by decide, rfl⟩
  have hid : Respelt "topics.pose.serial_mapping" (.int 0) (.string "\t+00 ") :=
    .text (.inr ⟨"pose", rfl⟩) (.plus 1 0) ⟨['\t'], [' '], by decide, by decide, rfl⟩
  have hsleep : Respelt "write_sleep_ms" (.int 10) (.string "0000010") :=
    .text (.inl (by decide)) (.unsigned 5 10) ⟨[], [], by decide, by decide, rfl⟩
  exact .cons ⟨rfl, .same _⟩ (.cons ⟨rfl, hwait⟩ (.cons ⟨rfl, hpoll⟩ (.cons ⟨rfl, hport⟩
    (.cons ⟨rfl, hring⟩ (.cons ⟨rfl, .same _⟩ (.cons ⟨rfl, .same _⟩ (.cons ⟨rfl, .same _⟩
    (.cons ⟨rfl, hid⟩ (.cons ⟨rfl, .same _⟩ (.cons ⟨rfl, .same _⟩ (.cons ⟨rfl, hsleep⟩
    .nil)))))))))))

theorem integers_as_text_spelled :
    Respells plainIntegers spelledIntegers ∧
    Settings.ofParameters spelledIntegers = .ok ⟨.cobs, 100, 64, 10, 1024, -1⟩ ∧
    LinkAddress.ofParameters spelledIntegers =
      .error (.invalidParameter "recv_port" "-9223372036854775808 is out of range") ∧
    Table.ofParameters spelledIntegers = .error (.reservedTopicId "pose" 0) := by
  obtain ⟨hsettings, hlink, htable⟩ := integers_as_text respells_spelledIntegers
  rw [hsettings, hlink, htable]
  exact ⟨respells_spelledIntegers, rfl, rfl, rfl⟩

end Parameters
end TopicBridge
