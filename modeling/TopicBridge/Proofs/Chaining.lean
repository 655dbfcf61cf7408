import TopicBridge.Proofs.Hexadecimal
import TopicBridge.Proofs.Lines
import TopicBridge.Proofs.Notation

/-! What one host prints, another one reads. A printed object has no control character in it, so
it stays one line, and the line spells the topic and the payload that were published. -/
namespace TopicBridge

namespace Text
variable {s : List Char}

/-- No control character below the blank, so no line feed and no carriage return. -/
def Printable (s : List Char) : Prop := ∀ c ∈ s, 32 ≤ c.toNat

instance : Decidable (Printable s) := List.decidableBAll (fun c : Char => 32 ≤ c.toNat) s

theorem Printable.append {more : List Char} (h : Printable s) (hmore : Printable more) :
    Printable (s ++ more) :=
  List.forall_mem_append.mpr ⟨h, hmore⟩

theorem Printable.intercalate {texts : List (List Char)} (h : ∀ s ∈ texts, Printable s) :
    Printable ([','].intercalate texts) := by
  induction texts with
  | nil => exact List.forall_mem_nil _
  | cons first more ih =>
      rw [List.forall_mem_cons] at h
      cases more with
      | nil =>
          rw [List.intercalate_singleton]
          exact h.1
      | cons next more =>
          rw [List.intercalate_cons_cons]
          exact (h.1.append (by decide)).append (ih h.2)

def octets (text : String) : Bytes := text.toUTF8.toList

@[simp] theorem utf8?_octets (text : String) : Cdr.utf8? (octets text) = some text :=
  Cdr.utf8?_eq_some_iff.mpr rfl

theorem octets_eq (text : String) : octets text = text.toList.flatMap String.utf8EncodeChar := by
  rw [octets, Cdr.toList_octets, String.toUTF8_eq_toByteArray, ← String.utf8Encode_toList,
    List.utf8Encode, List.data_toByteArray]

theorem octets_ended (text : String) : octets (text ++ "\n") = octets text ++ [0x0A] := by
  rw [octets_eq, octets_eq, String.toList_append, List.flatMap_append]
  rfl

/-- A character takes one octet, its own number, or several above all numbers of seven bits. -/
theorem le_of_mem_utf8EncodeChar {c : Char} {b : UInt8} (h : 32 ≤ c.toNat)
    (hb : b ∈ String.utf8EncodeChar c) : 32 ≤ b.toNat := by
  have hoctet : ∀ n, 32 ≤ n → n < 256 → 32 ≤ (UInt8.ofNat n).toNat := by
    intro n hn hlt
    rwa [UInt8.toNat_ofNat', Nat.mod_eq_of_lt hlt]
  have hvalue : 32 ≤ c.val.toNat := h
  rw [String.utf8EncodeChar.eq_1] at hb
  generalize c.val.toNat = n at hvalue hb
  split at hb
  · rw [List.mem_singleton] at hb
    subst hb
    exact hoctet n hvalue (by omega)
  · split at hb
    · simp only [List.mem_cons, List.not_mem_nil, or_false] at hb
      rcases hb with rfl | rfl <;> exact hoctet _ (by omega) (by omega)
    · split at hb
      · simp only [List.mem_cons, List.not_mem_nil, or_false] at hb
        rcases hb with rfl | rfl | rfl <;> exact hoctet _ (by omega) (by omega)
      · simp only [List.mem_cons, List.not_mem_nil, or_false] at hb
        rcases hb with rfl | rfl | rfl | rfl <;> exact hoctet _ (by omega) (by omega)

theorem Printable.octets {text : String} (h : Printable text.toList) {b : UInt8}
    (hb : b ∈ octets text) : 32 ≤ b.toNat := by
  rw [octets_eq, List.mem_flatMap] at hb
  obtain ⟨c, hc, hb⟩ := hb
  exact le_of_mem_utf8EncodeChar (h c hc) hb

end Text

open Text (Printable octets)

namespace Json

theorem printable_hexDigits (n : Nat) : Printable (hexDigits n) := by
  have hdigit : ∀ i : Fin 16, 32 ≤ (Nat.digitChar i).toNat := by decide
  intro c hc
  simp only [hexDigits, List.mem_cons, List.not_mem_nil, or_false] at hc
  rcases hc with rfl | rfl | rfl | rfl <;> exact hdigit ⟨_, Nat.mod_lt _ (by decide)⟩

theorem printable_escaped (c : Char) : Printable (escaped c) := by
  unfold escaped
  iterate 7
    split
    · decide
  split
  · exact Printable.append (by decide) (printable_hexDigits _)
  · next h => exact List.forall_mem_singleton.mpr (Nat.le_of_not_lt h)

theorem printable_quoted (s : List Char) : Printable (quoted s) := by
  refine Printable.append (Printable.append (by decide) ?_) (by decide)
  intro d hd
  obtain ⟨c, -, hd⟩ := List.mem_flatMap.mp hd
  exact printable_escaped c d hd

theorem printable_toDigits (n : Nat) : Printable (Nat.toDigits 10 n) := by
  intro c hc
  have hdigits : Printable ['0', '1', '2', '3', '4', '5', '6', '7', '8', '9'] := by decide
  exact hdigits c (mem_of_isDigit (isDigit_of_mem_toDigits hc))

theorem toList_quote (text : String) : (quote text).toList = quoted text.toList :=
  String.toList_ofList

theorem toList_toString (n : Nat) : (toString n).toList = Nat.toDigits 10 n := by
  rw [Nat.toString_eq_ofList_toDigits, String.toList_ofList]

theorem printable_object {entries : List Member} (h : ∀ m ∈ entries, Printable m.spelling.toList) :
    Printable (Output.object (entries.map fun m => (m.name, m.spelling))).toList := by
  have hwritten : ∀ s ∈ entries.map Member.written, Printable s := by
    intro s hs
    obtain ⟨m, hm, rfl⟩ := List.mem_map.mp hs
    exact (printable_quoted _).append (Printable.append (s := [':']) (by decide) (h m hm))
  rw [toList_object]
  exact Printable.append (s := ['{']) (by decide)
    ((Printable.intercalate hwritten).append (by decide))

end Json

namespace Output
open Json (Member reads_quoted reads_toDigits toList_quote toList_toString)

def textMember (name text : String) : Member where
  name := name
  spelling := Json.quote text
  json := .string (some text)
  reads := by
    have hreads := reads_quoted text.toList
    rwa [String.ofList_toList, ← toList_quote] at hreads

def countMember (name : String) (n : Nat) : Member where
  name := name
  spelling := toString n
  json := .number
  reads := by
    rw [toList_toString]
    exact reads_toDigits n

def members (m : TopicMapping) (payload : Bytes) : List Member :=
  [textMember "topic" m.name, textMember "type" m.typeName,
    countMember "topic_id" m.topicId.toNat, countMember "size" payload.length,
    textMember "payload" (Hex.render payload)]

theorem message_json (m : TopicMapping) (payload : Bytes) :
    message .json m payload =
      object ((members m payload).map fun part => (part.name, part.spelling)) :=
  rfl

theorem printable_message (m : TopicMapping) (payload : Bytes) :
    Printable (message .json m payload).toList := by
  have htext : ∀ name text, Printable (textMember name text).spelling.toList := by
    intro name text
    rw [textMember, toList_quote]
    exact Json.printable_quoted _
  have hcount : ∀ name n, Printable (countMember name n).spelling.toList := by
    intro name n
    rw [countMember, toList_toString]
    exact Json.printable_toDigits n
  rw [message_json]
  refine Json.printable_object ?_
  simp only [members, List.forall_mem_cons, List.not_mem_nil, false_imp_iff, implies_true,
    htext, hcount, and_true]

/-- A printed message is read as its topic and its payload, whatever else stands in it. -/
theorem parse_message (m : TopicMapping) (payload : Bytes) :
    HostMessage.parse (message .json m payload) = .ok ⟨m.name, payload⟩ := by
  have hfields : HostMessage.fields? (.object ((members m payload).map Member.parsed)) =
      some (m.name, Hex.render payload) := by
    rfl
  rw [HostMessage.parse, message_json, Json.parse?_object, Option.bind_eq_bind, Option.bind_some,
    hfields]
  simp

end Output

namespace StdioHost

theorem unreturned_octets {text : String} (h : Printable text.toList) :
    unreturned (octets text) = octets text := by
  have hlast : (octets text).getLast? ≠ some 0x0D := by
    intro hreturn
    have hle := h.octets (List.mem_of_getLast? hreturn)
    exact absurd hle (by decide)
  rw [unreturned, if_neg hlast]

/-- Texts that are ended by line feeds are the lines again. -/
theorem lines_flatMap {texts : List String} (h : ∀ text ∈ texts, Printable text.toList) :
    lines (texts.flatMap fun text => octets (text ++ "\n")) = texts.map octets := by
  induction texts with
  | nil => rfl
  | cons text texts ih =>
      rw [List.forall_mem_cons] at h
      have hfeed : 0x0A ∉ octets text := by
        intro hmem
        exact absurd (h.1.octets hmem) (by decide)
      rw [List.flatMap_cons, Text.octets_ended, List.append_assoc, List.singleton_append,
        lines_ended hfeed, unreturned_octets h.1, ih h.2, List.map_cons]

theorem spelled?_message (m : TopicMapping) (payload : Bytes) :
    spelled? (octets (Output.message .json m payload)) = some ⟨m.name, payload⟩ := by
  have hsolid : ¬ Text.Blank (Output.message .json m payload).toList := by
    intro hblank
    rw [Output.message_json, Json.toList_object] at hblank
    exact absurd (hblank '{' List.mem_cons_self) (by decide)
  rw [spelled?, Text.utf8?_octets, Option.bind_some, if_neg hsolid, Output.parse_message]
  rfl

def publishAll (host : StdioHost) (published : List (TopicMapping × Bytes)) : StdioHost :=
  published.foldl (fun host entry => (host.publish entry.1 entry.2).2) host

def output (host : StdioHost) : Bytes := host.printed.toList.flatMap octets

theorem printed_publishAll (host : StdioHost) (hwhole : host.broken = none)
    (published : List (TopicMapping × Bytes)) :
    (host.publishAll published).printed.toList = host.printed.toList ++
      published.map fun entry => Output.message host.format entry.1 entry.2 ++ "\n" := by
  induction published generalizing host with
  | nil => simp [publishAll]
  | cons entry published ih =>
      have hpublish : (host.publish entry.1 entry.2).2 =
          { host with
            printed := host.printed.push (Output.message host.format entry.1 entry.2 ++ "\n")
            published := host.published + 1 } := by
        simp only [publish, hwhole]
      have hrest := ih (host.publish entry.1 entry.2).2 (by rw [hpublish]; exact hwhole)
      rw [publishAll, List.foldl_cons, ← publishAll, hrest, hpublish]
      simp

theorem messages_map (published : List (TopicMapping × Bytes)) :
    messages (published.map fun entry => octets (Output.message .json entry.1 entry.2)) =
      published.map fun entry => ⟨entry.1.name, entry.2⟩ := by
  induction published with
  | nil => rfl
  | cons entry published ih =>
      have htext : isText (octets (Output.message .json entry.1 entry.2)) = true := by
        simp [isText]
      rw [List.map_cons, List.map_cons, messages_cons, if_pos htext, spelled?_message, ih]
      rfl

/-- The messages that a host publishes as objects stand on one line each, and a host that reads
this output queues the same topics and payloads in the same order. -/
theorem readLines_output (published : List (TopicMapping × Bytes)) (reader : StdioHost) :
    (∀ entry ∈ published, Printable (Output.message .json entry.1 entry.2).toList) ∧
      (({ format := .json } : StdioHost).publishAll published).printed.toList =
        published.map (fun entry => Output.message .json entry.1 entry.2 ++ "\n") ∧
      reader.readLines (({ format := .json } : StdioHost).publishAll published).output =
        { reader with
          queue := reader.queue ++ published.map fun entry => ⟨entry.1.name, entry.2⟩ } := by
  have hprinted := printed_publishAll { format := .json } rfl published
  have hprintable : ∀ text ∈ published.map fun entry => Output.message .json entry.1 entry.2,
      Printable text.toList := by
    intro text htext
    obtain ⟨entry, -, rfl⟩ := List.mem_map.mp htext
    exact Output.printable_message _ _
  have hlines : lines (({ format := .json } : StdioHost).publishAll published).output =
      published.map fun entry => octets (Output.message .json entry.1 entry.2) := by
    have hcut := lines_flatMap hprintable
    rw [List.flatMap_map, List.map_map] at hcut
    rw [output, hprinted, Array.toList_empty, List.nil_append, List.flatMap_map]
    exact hcut
  refine ⟨fun entry _ => Output.printable_message _ _, hprinted, ?_⟩
  rw [readLines, hlines, messages_map, foldl_enqueue]

end StdioHost
end TopicBridge
