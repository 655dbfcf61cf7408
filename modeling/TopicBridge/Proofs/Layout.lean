import TopicBridge.Topic.Message

/-! Where the octets of a message lie, whoever wrote them. A word may stand behind padding of any
octets, and an empty text may lack its final zero. What is written here is one of these layouts. -/
namespace TopicBridge.Cdr

/-- A word from the next multiple of four on, low octet first, and what lies before it. -/
inductive WordAt (position : Nat) : Nat → Bytes → Prop
  | behind {padding : Bytes} (a b c d : UInt8) :
      padding.length < 4 → (position + padding.length) % 4 = 0 →
      WordAt position (a.toNat + 0x100 * b.toNat + 0x10000 * c.toNat + 0x1000000 * d.toNat)
        (padding ++ [a, b, c, d])

inductive TextAt (position : Nat) : String → Bytes → Prop
  | bare {length : Bytes} : WordAt position 0 length → TextAt position "" length
  | closed {s : String} {length : Bytes} : WordAt position (s.utf8ByteSize + 1) length →
      TextAt position s (length ++ (s.toUTF8.toList ++ [0]))

inductive TextsAt : Nat → List String → Bytes → Prop
  | nil {position : Nat} : TextsAt position [] []
  | cons {position : Nat} {s : String} {rest : List String} {front back : Bytes} :
      TextAt position s front → TextsAt (position + front.length) rest back →
      TextsAt position (s :: rest) (front ++ back)

inductive TextSequenceAt (position : Nat) : List String → Bytes → Prop
  | counted {items : List String} {count octets : Bytes} :
      WordAt position items.length count → TextsAt (position + count.length) items octets →
      TextSequenceAt position items (count ++ octets)

inductive OctetSequenceAt (position : Nat) : Bytes → Bytes → Prop
  | counted {items count : Bytes} : WordAt position items.length count →
      OctetSequenceAt position items (count ++ items)

theorem toList_loop (data : ByteArray) (start : Nat) (passed : Bytes) :
    ByteArray.toList.loop data start passed = passed.reverse ++ data.data.toList.drop start := by
  fun_induction ByteArray.toList.loop data start passed with
  | case1 start passed h ih =>
      have hhere : start < data.data.toList.length := h
      rw [ih, List.reverse_cons, List.append_assoc, List.singleton_append,
        List.drop_eq_getElem_cons hhere]
      congr 2
      exact (getElem!_pos data.data start h).trans rfl
  | case2 start passed h =>
      have hpast : data.data.toList.length ≤ start := Nat.le_of_not_lt h
      rw [List.drop_eq_nil_of_le hpast, List.append_nil]

theorem toList_octets (data : ByteArray) : data.toList = data.data.toList :=
  toList_loop data 0 []

theorem length_toUTF8 (s : String) : s.toUTF8.toList.length = s.utf8ByteSize := by
  rw [toList_octets]
  rfl

/-- A text is read from its own octets only. -/
theorem utf8?_eq_some_iff {octets : Bytes} {s : String} :
    utf8? octets = some s ↔ octets = s.toUTF8.toList := by
  have hoctets : octets = s.toUTF8.toList ↔ octets.toByteArray = s.toByteArray := by
    rw [toList_octets, String.toUTF8_eq_toByteArray, ByteArray.ext_iff, List.data_toByteArray,
      ← Array.toList_inj]
  rw [hoctets, utf8?, String.fromUTF8?]
  split
  · rw [Option.some.injEq, ← String.toByteArray_inj]
    rfl
  · rename_i hinvalid
    constructor
    · intro h
      cases h
    · intro h
      exact absurd (h ▸ s.isValidUTF8) hinvalid

def letters (items : List String) : Bytes := items.flatMap fun s => s.toUTF8.toList

theorem WordAt.least {position value : Nat} {octets : Bytes} (h : WordAt position value octets) :
    4 ≤ octets.length := by
  cases h with
  | behind a b c d hless haligned =>
      rw [List.length_append]
      exact Nat.le_add_left _ _

theorem TextAt.least {position : Nat} {s : String} {octets : Bytes} (h : TextAt position s octets) :
    4 + s.utf8ByteSize ≤ octets.length := by
  cases h with
  | bare hword => exact hword.least
  | closed hword =>
      have hlength := hword.least
      rw [List.length_append, List.length_append, length_toUTF8]
      omega

/-- Every text takes four octets even without its own. -/
theorem TextsAt.least {position : Nat} {items : List String} {octets : Bytes}
    (h : TextsAt position items octets) :
    items.length * 4 + (letters items).length ≤ octets.length := by
  induction h with
  | nil => exact Nat.le_refl _
  | cons hfirst _ ih =>
      have hleast := hfirst.least
      rw [letters, List.flatMap_cons, List.length_append, length_toUTF8, List.length_cons,
        List.length_append]
      rw [letters] at ih
      omega

theorem TextSequenceAt.least {position : Nat} {items : List String} {octets : Bytes}
    (h : TextSequenceAt position items octets) :
    items.length + (letters items).length ≤ octets.length := by
  cases h with
  | counted hcount hitems =>
      have hleast := hitems.least
      rw [List.length_append]
      omega

theorem OctetSequenceAt.least {position : Nat} {items octets : Bytes}
    (h : OctetSequenceAt position items octets) : items.length ≤ octets.length := by
  cases h with
  | counted hcount =>
      rw [List.length_append]
      exact Nat.le_add_left _ _

theorem gap_eq_iff {position n : Nat} : gap position = n ↔ n < 4 ∧ (position + n) % 4 = 0 := by
  unfold gap
  omega

/-- The four octets of a word make up its value. -/
theorem toNat_octets (value : UInt32) :
    value.toUInt8.toNat + 0x100 * (value >>> 8).toUInt8.toNat +
      0x10000 * (value >>> 16).toUInt8.toNat + 0x1000000 * (value >>> 24).toUInt8.toNat =
        value.toNat := by
  have hlt : value.toNat < 4294967296 := value.toNat_lt
  simp only [UInt32.toNat_toUInt8, UInt32.toNat_shiftRight, UInt32.reduceToNat,
    Nat.shiftRight_eq_div_pow, Nat.reducePow, Nat.reduceMod]
  omega

theorem wordAt_word {position value : Nat} (hvalue : value < UInt32.size) :
    WordAt position value (word position value) := by
  obtain ⟨hless, haligned⟩ := gap_eq_iff.mp (rfl : gap position = gap position)
  have hpadding : (List.replicate (gap position) (0 : UInt8)).length = gap position :=
    List.length_replicate
  have hword := WordAt.behind (UInt32.ofNat value).toUInt8 (UInt32.ofNat value >>> 8).toUInt8
    (UInt32.ofNat value >>> 16).toUInt8 (UInt32.ofNat value >>> 24).toUInt8
    (hpadding.symm ▸ hless) (hpadding.symm ▸ haligned)
  rw [toNat_octets, UInt32.toNat_ofNat_of_lt' hvalue] at hword
  exact hword

theorem textAt_text {position : Nat} {s : String} (h : s.utf8ByteSize + 1 < UInt32.size) :
    TextAt position s (text position s) := by
  rw [text, List.append_assoc]
  exact .closed (wordAt_word h)

theorem textsAt_texts {position : Nat} {items : List String}
    (h : ∀ s ∈ items, s.utf8ByteSize + 1 < UInt32.size) :
    TextsAt position items (texts position items) := by
  induction items generalizing position with
  | nil => exact .nil
  | cons s rest ih =>
      rw [List.forall_mem_cons] at h
      exact .cons (textAt_text h.1) (ih h.2)

theorem textSequenceAt_textSequence {position : Nat} {items : List String}
    (hcount : items.length < UInt32.size) (hitems : ∀ s ∈ items, s.utf8ByteSize + 1 < UInt32.size) :
    TextSequenceAt position items (textSequence position items) :=
  .counted (wordAt_word hcount) (textsAt_texts hitems)

theorem octetSequenceAt_octetSequence {position : Nat} {items : Bytes}
    (hcount : items.length < UInt32.size) :
    OctetSequenceAt position items (octetSequence position items) :=
  .counted (wordAt_word hcount)

theorem length_letters_le_texts (position : Nat) (items : List String) :
    items.length + (letters items).length ≤ (texts position items).length := by
  induction items generalizing position with
  | nil => exact Nat.le_refl _
  | cons s rest ih =>
      have hrest := ih (position + (text position s).length)
      have hfirst : s.utf8ByteSize + 1 ≤ (text position s).length := by
        rw [text, List.append_assoc, List.length_append, List.length_append, length_toUTF8]
        exact Nat.le_add_left _ _
      rw [letters] at hrest ⊢
      rw [texts, List.flatMap_cons, List.length_append, List.length_append, length_toUTF8,
        List.length_cons]
      omega

theorem length_letters_le_textSequence (position : Nat) (items : List String) :
    items.length + (letters items).length ≤ (textSequence position items).length := by
  rw [textSequence, List.length_append]
  exact Nat.le_add_left_of_le (length_letters_le_texts _ _)

theorem length_le_octetSequence (position : Nat) (items : Bytes) :
    items.length ≤ (octetSequence position items).length := by
  rw [octetSequence, List.length_append]
  exact Nat.le_add_left _ _

theorem utf8ByteSize_le_letters {items : List String} {s : String} (h : s ∈ items) :
    s.utf8ByteSize ≤ (letters items).length := by
  obtain ⟨front, back, rfl⟩ := List.append_of_mem h
  rw [letters, List.flatMap_append, List.flatMap_cons, List.length_append, List.length_append,
    length_toUTF8]
  omega

end TopicBridge.Cdr

namespace TopicBridge.MappingMessage

/-- The four fields in order, one right behind the other but for padding. -/
inductive LaidOutAt (position : Nat) (message : MappingMessage) : Bytes → Prop
  | inOrder {names ids types directions : Bytes} :
      Cdr.TextSequenceAt position message.names names →
      Cdr.OctetSequenceAt (position + names.length) message.ids ids →
      Cdr.TextSequenceAt (position + names.length + ids.length) message.types types →
      Cdr.OctetSequenceAt (position + names.length + ids.length + types.length)
        message.directions directions →
      LaidOutAt position message (names ++ (ids ++ (types ++ directions)))

/-- Texts and sequences whose lengths, counted with one more, are words. -/
structure Fits (message : MappingMessage) : Prop where
  texts : ∀ s ∈ message.names ++ message.types, s.utf8ByteSize + 1 < UInt32.size
  names : message.names.length + 1 < UInt32.size
  ids : message.ids.length + 1 < UInt32.size
  types : message.types.length + 1 < UInt32.size
  directions : message.directions.length + 1 < UInt32.size

/-- The texts and octets of a message, and the octets of its texts. -/
def load (message : MappingMessage) : Nat :=
  message.names.length + (Cdr.letters message.names).length + message.ids.length +
    message.types.length + (Cdr.letters message.types).length + message.directions.length

theorem LaidOutAt.load_le {position : Nat} {message : MappingMessage} {octets : Bytes}
    (h : message.LaidOutAt position octets) : message.load ≤ octets.length := by
  cases h with
  | inOrder hnames hids htypes hdirections =>
      have hnames := hnames.least
      have hids := hids.least
      have htypes := htypes.least
      have hdirections := hdirections.least
      simp only [load, List.length_append]
      omega

theorem laidOutAt_encode {message : MappingMessage} (h : message.Fits) :
    message.LaidOutAt 0 message.encode := by
  obtain ⟨hnames, htypes⟩ := List.forall_mem_append.mp h.texts
  unfold encode
  rw [List.append_assoc, List.append_assoc]
  simp only [List.length_append]
  rw [← Nat.zero_add (Cdr.textSequence 0 message.names).length]
  exact .inOrder
    (Cdr.textSequenceAt_textSequence (Nat.lt_of_succ_lt h.names) hnames)
    (Cdr.octetSequenceAt_octetSequence (Nat.lt_of_succ_lt h.ids))
    (Cdr.textSequenceAt_textSequence (Nat.lt_of_succ_lt h.types) htypes)
    (Cdr.octetSequenceAt_octetSequence (Nat.lt_of_succ_lt h.directions))

theorem load_le_encode (message : MappingMessage) : message.load ≤ message.encode.length := by
  simp only [encode, List.length_append]
  refine Nat.le_trans ?_ (Nat.add_le_add (Nat.add_le_add (Nat.add_le_add
    (Cdr.length_letters_le_textSequence _ _) (Cdr.length_le_octetSequence _ _))
    (Cdr.length_letters_le_textSequence _ _)) (Cdr.length_le_octetSequence _ _))
  rw [load]
  omega

/-- What is written is at least as long as each text and each sequence in it. -/
theorem fits_of_length_encode {message : MappingMessage}
    (h : message.encode.length + 1 < UInt32.size) : message.Fits := by
  have hload := message.load_le_encode
  rw [load] at hload
  refine ⟨List.forall_mem_append.mpr ⟨fun s hs => ?_, fun s hs => ?_⟩, by omega, by omega,
    by omega, by omega⟩
  · have hletters := Cdr.utf8ByteSize_le_letters hs
    omega
  · have hletters := Cdr.utf8ByteSize_le_letters hs
    omega

end TopicBridge.MappingMessage
