import TopicBridge.Proofs.Rows

/-! Tables on the wire. The octets written for a table give the table back, and a table that comes
of a message has the rows of that message, each kept together, in the order of their ids. -/
namespace TopicBridge

/-- What a message says of one topic, an entry of each sequence. -/
structure MappingMessage.Row where
  name : String
  topicId : UInt8
  typeName : String
  code : UInt8
  deriving DecidableEq, Repr

def MappingMessage.ofRows (rows : List Row) : MappingMessage :=
  { names := rows.map (·.name)
    ids := rows.map (·.topicId)
    types := rows.map (·.typeName)
    directions := rows.map (·.code) }

namespace TopicMapping

def row (mapping : TopicMapping) : MappingMessage.Row :=
  { name := mapping.name
    topicId := mapping.topicId
    typeName := mapping.typeName
    code := mapping.direction.code?.getD 0 }

/-- A name and a type whose lengths, the final zero counted, are words. -/
structure Writable (mapping : TopicMapping) : Prop where
  name : mapping.name.utf8ByteSize + 1 < UInt32.size
  typeName : mapping.typeName.utf8ByteSize + 1 < UInt32.size

end TopicMapping

namespace Table
variable {table : Table} {mappings : List TopicMapping} {message : MappingMessage}

theorem toMessage_eq (table : Table) :
    table.toMessage = .ofRows (table.mappings.map TopicMapping.row) := by
  simp [toMessage, MappingMessage.ofRows, TopicMapping.row]

theorem eq_ofRows_of_spells (h : message.Spells mappings) :
    message = .ofRows (mappings.map TopicMapping.row) := by
  obtain ⟨names, ids, types, directions⟩ := message
  obtain rfl := h.names
  obtain rfl := h.ids
  obtain rfl := h.types
  obtain rfl := h.codes
  simp [MappingMessage.ofRows, TopicMapping.row]

/-- Octets in strictly ascending order leave that many below 256. -/
theorem length_le_of_ascending {ids : Bytes} (h : ids.Pairwise (· < ·)) (low : Nat)
    (hlow : ∀ id ∈ ids, low ≤ id.toNat) : ids.length ≤ 256 - low := by
  induction ids generalizing low with
  | nil => exact Nat.zero_le _
  | cons first rest ih =>
      obtain ⟨hfirst, hrest⟩ := List.pairwise_cons.mp h
      have habove : ∀ id ∈ rest, first.toNat + 1 ≤ id.toNat :=
        fun id hid => UInt8.lt_iff_toNat_lt.mp (hfirst id hid)
      have hlength := ih hrest _ habove
      have hoctet := first.toNat_lt
      have hbound := hlow first List.mem_cons_self
      rw [List.length_cons]
      omega

theorem Proper.length_mappings_le (h : table.Proper) : table.mappings.length ≤ 256 := by
  have hids : (table.mappings.map (·.topicId)).Pairwise (· < ·) := List.pairwise_map.mpr h.ascending
  have hlength := length_le_of_ascending hids 0 fun _ _ => Nat.zero_le _
  rw [List.length_map] at hlength
  exact hlength

theorem length_mappings (table : Table) : table.mappings.length = table.size := List.length_map ..

/-- Only its texts can keep the message of a table from being written. -/
theorem Proper.fits_toMessage (h : table.Proper)
    (hwritable : ∀ mapping ∈ table.mappings, mapping.Writable) : table.toMessage.Fits := by
  have hcount : table.mappings.length + 1 < UInt32.size :=
    Nat.lt_of_le_of_lt (Nat.succ_le_succ h.length_mappings_le) (by decide)
  refine ⟨List.forall_mem_append.mpr ⟨fun s hs => ?_, fun s hs => ?_⟩, ?_, ?_, ?_, ?_⟩
  · obtain ⟨mapping, hmapping, rfl⟩ := List.mem_map.mp hs
    exact (hwritable mapping hmapping).name
  · obtain ⟨mapping, hmapping, rfl⟩ := List.mem_map.mp hs
    exact (hwritable mapping hmapping).typeName
  all_goals
    simp only [toMessage, List.length_map]
    exact hcount

/-- The rows of a message, sorted, are the rows of its table. -/
theorem exists_rows_of_ofMessage (h : ofMessage message = .ok table) :
    ∃ rows sorted, message = .ofRows rows ∧ sorted.Perm rows ∧
      (sorted.Pairwise fun a b => a.topicId < b.topicId) ∧ table.toMessage = .ofRows sorted := by
  obtain ⟨mappings, hspells, hlists⟩ := exists_spells_of_ofMessage h
  exact ⟨mappings.map TopicMapping.row, table.mappings.map TopicMapping.row,
    eq_ofRows_of_spells hspells, hlists.perm.map _,
    List.pairwise_map.mpr hlists.proper.ascending, table.toMessage_eq⟩

/-- Of any table that can be built, the octets of its message are read back as that message, which
agrees on the number of topics and gives the table again. Any message that gives the table has the
rows of the table's own message, in some order, while there they ascend by id. Every direction in it
has a code. -/
theorem to_wire_and_back (hbuilt : table.Built) :
    ((∀ mapping ∈ table.mappings, mapping.Writable) →
      MappingMessage.decode table.toMessage.encode = .ok table.toMessage ∧
        table.toMessage.commonLength = .ok table.size ∧
        ofMessage table.toMessage = .ok table) ∧
    (∀ message, ofMessage message = .ok table →
      ∃ rows sorted, message = .ofRows rows ∧ sorted.Perm rows ∧
        (sorted.Pairwise fun a b => a.topicId < b.topicId) ∧ table.toMessage = .ofRows sorted) ∧
    ∀ mapping ∈ table.mappings, ∃ code, mapping.direction.code? = some code := by
  have hproper := hbuilt.proper
  refine ⟨fun hwritable => ⟨?_, ?_, hproper.ofMessage_toMessage⟩,
    fun message => exists_rows_of_ofMessage, fun mapping hmapping => ?_⟩
  · exact MappingMessage.decode_encode (hproper.fits_toMessage hwritable)
  · rw [commonLength_toMessage, length_mappings]
  · exact ⟨_, Direction.ofCode?_eq_some_iff.mp (ofCode?_code? (hproper.placed hmapping).known)⟩

/-- Rows out of order, two of one name, and a name with a zero in it. -/
def shuffled : MappingMessage :=
  { names := ["a", "a", "\x00é"], ids := [9, 2, 5], types := ["A", "", "B"],
    directions := [1, 1, 0] }

theorem to_wire_and_back_shuffled :
    ∃ table, table.Built ∧ ofMessage shuffled = .ok table ∧
      (∀ mapping ∈ table.mappings, mapping.Writable) ∧
      MappingMessage.decode table.toMessage.encode = .ok table.toMessage ∧
      ofMessage table.toMessage = .ok table ∧
      ∃ rows sorted, shuffled = .ofRows rows ∧ sorted.Perm rows ∧
        table.toMessage = .ofRows sorted := by
  obtain ⟨table, htable⟩ : ∃ table, ofMessage shuffled = .ok table := ⟨_, rfl⟩
  have hmappings : (ofMessage shuffled).map mappings =
      .ok [⟨2, "a", "", .hostToSerial⟩, ⟨5, "\x00é", "B", .serialToHost⟩,
        ⟨9, "a", "A", .hostToSerial⟩] := rfl
  rw [htable] at hmappings
  have hwritable : ∀ mapping ∈ table.mappings, mapping.Writable := by
    rw [Except.ok.inj hmappings]
    simp only [List.forall_mem_cons]
    exact ⟨⟨by decide, by decide⟩, ⟨by decide, by decide⟩, ⟨by decide, by decide⟩, nofun⟩
  have hbuilt : table.Built := .message htable
  obtain ⟨hforth, hback, -⟩ := to_wire_and_back hbuilt
  obtain ⟨hread, -, hagain⟩ := hforth hwritable
  obtain ⟨rows, sorted, hrows, hperm, -, hsorted⟩ := hback shuffled htable
  exact ⟨table, hbuilt, htable, hwritable, hread, hagain, rows, sorted, hrows, hperm, hsorted⟩

end Table
end TopicBridge
