import TopicBridge.Proofs.Listing

/-! Tables from negotiation messages. A message whose four sequences have one length and whose codes
are all known spells a list of mappings, one for each row, and gives what that list gives; every
other message is malformed. No row is looked for outside of a sequence. -/
namespace TopicBridge

namespace Direction
variable {direction : Direction} {code : UInt8}

theorem ofCode?_eq_some_iff : ofCode? code = some direction ↔ direction.code? = some code := by
  unfold ofCode?
  by_cases hzero : code = 0
  · cases direction <;> simp [hzero, code?]
  · by_cases hone : code = 1
    · cases direction <;> simp [hone, code?]
    · cases direction <;> simp [hzero, hone, code?, eq_comm]

theorem eq_of_code? (h : direction.code? = some code) : code = 0 ∨ code = 1 := by
  cases direction with
  | serialToHost => exact .inl (Option.some.inj h).symm
  | hostToSerial => exact .inr (Option.some.inj h).symm
  | unknown => cases h

theorem ofCode?_eq_none_iff : ofCode? code = none ↔ code ≠ 0 ∧ code ≠ 1 := by
  unfold ofCode?
  split
  · simp [*]
  · split <;> simp [*]

end Direction

namespace MappingMessage

/-- The four sequences have one length. -/
structure Even (message : MappingMessage) : Prop where
  ids : message.ids.length = message.names.length
  types : message.types.length = message.names.length
  directions : message.directions.length = message.names.length

/-- The mappings that the rows of a message are, one for each. -/
structure Spells (message : MappingMessage) (mappings : List TopicMapping) : Prop where
  names : message.names = mappings.map (·.name)
  ids : message.ids = mappings.map (·.topicId)
  types : message.types = mappings.map (·.typeName)
  directions : message.directions.map Direction.ofCode? = mappings.map (some ·.direction)

/-- One row, each entry looked for by the index; `none` if a sequence ends before it. -/
def rowAt? (message : MappingMessage) (i : Nat) : Option (Except BridgeError TopicMapping) := do
  let code ← message.directions[i]?
  match Direction.ofCode? code with
  | none =>
      let name ← message.names[i]?
      some (.error
        (.malformedNegotiation s!"unknown direction code {code} for topic {name}"))
  | some direction =>
      let topicId ← message.ids[i]?
      let name ← message.names[i]?
      let typeName ← message.types[i]?
      some (.ok { topicId, name, typeName, direction })

def rowsAt? (message : MappingMessage) (i : Nat) :
    Nat → Option (Except BridgeError (List TopicMapping))
  | 0 => some (.ok [])
  | count + 1 => do
      match ← message.rowAt? i with
      | .error cause => some (.error cause)
      | .ok mapping => (message.rowsAt? (i + 1) count).map (Except.map (mapping :: ·))

/-- The table of a message, read row by row up to the common length. -/
def tableAt? (message : MappingMessage) : Option (Except BridgeError Table) :=
  match message.commonLength with
  | .error cause => some (.error cause)
  | .ok length => (message.rowsAt? 0 length).map (· >>= Table.ofMappings)

section
variable {message : MappingMessage} {mappings : List TopicMapping}

theorem Even.commonLength (h : message.Even) : message.commonLength = .ok message.names.length := by
  rw [MappingMessage.commonLength]
  exact if_pos ⟨h.ids, h.types, h.directions⟩

theorem commonLength_of_not_even (h : ¬ message.Even) :
    ∃ reason, message.commonLength = .error (.malformedNegotiation reason) := by
  rw [MappingMessage.commonLength]
  refine ⟨_, if_neg ?_⟩
  rintro ⟨hids, htypes, hdirections⟩
  exact h ⟨hids, htypes, hdirections⟩

theorem Spells.even (h : message.Spells mappings) : message.Even := by
  have hcodes := congrArg List.length h.directions
  rw [List.length_map, List.length_map] at hcodes
  refine ⟨?_, ?_, ?_⟩
  · rw [h.ids, h.names, List.length_map, List.length_map]
  · rw [h.types, h.names, List.length_map, List.length_map]
  · rw [hcodes, h.names, List.length_map]

/-- A code that is read is the code of its row's direction. -/
theorem Spells.exists_direction (h : message.Spells mappings) {code : UInt8}
    (hcode : code ∈ message.directions) :
    ∃ mapping ∈ mappings, Direction.ofCode? code = some mapping.direction := by
  have hread : Direction.ofCode? code ∈ mappings.map (some ·.direction) :=
    h.directions ▸ List.mem_map_of_mem hcode
  obtain ⟨mapping, hmapping, hdirection⟩ := List.mem_map.mp hread
  exact ⟨mapping, hmapping, hdirection.symm⟩

theorem Spells.codes_known (h : message.Spells mappings) :
    ∀ code ∈ message.directions, code = 0 ∨ code = 1 := by
  intro code hcode
  obtain ⟨mapping, -, hdirection⟩ := h.exists_direction hcode
  exact Direction.eq_of_code? (Direction.ofCode?_eq_some_iff.mp hdirection)

theorem Spells.directions_known (h : message.Spells mappings) :
    ∀ mapping ∈ mappings, mapping.direction ≠ .unknown := by
  intro mapping hmapping hunknown
  have hread : some mapping.direction ∈ message.directions.map Direction.ofCode? :=
    h.directions ▸ List.mem_map_of_mem (f := (some ·.direction)) hmapping
  obtain ⟨code, -, hcode⟩ := List.mem_map.mp hread
  rw [hunknown, Direction.ofCode?_eq_some_iff] at hcode
  cases hcode

theorem Spells.codes (h : message.Spells mappings) :
    message.directions = mappings.map fun mapping => mapping.direction.code?.getD 0 := by
  have hcodes := congrArg (List.map fun direction => (direction.bind Direction.code?).getD 0)
    h.directions
  rw [List.map_map, List.map_map] at hcodes
  refine Eq.trans ?_ hcodes
  refine (List.map_id _).symm.trans (List.map_congr_left fun code hcode => ?_)
  obtain ⟨mapping, -, hdirection⟩ := h.exists_direction hcode
  simp [hdirection, Direction.ofCode?_eq_some_iff.mp hdirection]

/-- In sequences of one length every index below it is in range. -/
theorem Even.rowsAt?_eq (h : message.Even) {i count : Nat}
    (hcount : i + count = message.names.length) :
    message.rowsAt? i count = some (Table.rows (message.names.drop i) (message.ids.drop i)
      (message.types.drop i) (message.directions.drop i)) := by
  induction count generalizing i with
  | zero =>
      rw [List.drop_of_length_le (by omega : message.names.length ≤ i)]
      rfl
  | succ count ih =>
      have hnames : i < message.names.length := by omega
      have hids : i < message.ids.length := h.ids ▸ hnames
      have htypes : i < message.types.length := h.types ▸ hnames
      have hdirections : i < message.directions.length := h.directions ▸ hnames
      rw [List.drop_eq_getElem_cons hnames, List.drop_eq_getElem_cons hids,
        List.drop_eq_getElem_cons htypes, List.drop_eq_getElem_cons hdirections, Table.rows,
        rowsAt?, rowAt?, List.getElem?_eq_getElem hnames, List.getElem?_eq_getElem hids,
        List.getElem?_eq_getElem htypes, List.getElem?_eq_getElem hdirections]
      cases hcode : Direction.ofCode? message.directions[i] with
      | none => simp [hcode]
      | some direction => simp [hcode, ih (by omega : i + 1 + count = message.names.length)]

theorem tableAt?_eq (message : MappingMessage) :
    message.tableAt? = some (Table.ofMessage message) := by
  rw [tableAt?, Table.ofMessage]
  by_cases h : message.Even
  · have hrows := h.rowsAt?_eq (Nat.zero_add _)
    simp only [List.drop_zero] at hrows
    rw [h.commonLength]
    dsimp only
    rw [hrows]
    rfl
  · obtain ⟨reason, hreason⟩ := commonLength_of_not_even h
    rw [hreason]
    rfl

end
end MappingMessage

namespace Table
variable {message : MappingMessage} {mappings : List TopicMapping}

/-- Rows of one length are mappings, or one of their codes is unknown. -/
theorem rows_cases {names types : List String} {ids codes : Bytes}
    (h : (MappingMessage.mk names ids types codes).Even) :
    (∃ mappings, (MappingMessage.mk names ids types codes).Spells mappings) ∨
      ∃ reason, rows names ids types codes = .error (.malformedNegotiation reason) ∧
        ∃ code ∈ codes, code ≠ 0 ∧ code ≠ 1 := by
  obtain ⟨hids, htypes, hcodes⟩ := h
  induction names generalizing ids types codes with
  | nil =>
      obtain rfl := List.eq_nil_of_length_eq_zero hids
      obtain rfl := List.eq_nil_of_length_eq_zero htypes
      obtain rfl := List.eq_nil_of_length_eq_zero hcodes
      exact .inl ⟨[], rfl, rfl, rfl, rfl⟩
  | cons name names ih =>
      obtain ⟨topicId, ids, rfl⟩ := List.exists_cons_of_length_eq_add_one hids
      obtain ⟨typeName, types, rfl⟩ := List.exists_cons_of_length_eq_add_one htypes
      obtain ⟨code, codes, rfl⟩ := List.exists_cons_of_length_eq_add_one hcodes
      rw [rows]
      cases hcode : Direction.ofCode? code with
      | none =>
          exact .inr ⟨_, rfl, code, List.mem_cons_self, Direction.ofCode?_eq_none_iff.mp hcode⟩
      | some direction =>
          rcases ih (Nat.succ.inj hids) (Nat.succ.inj htypes) (Nat.succ.inj hcodes) with
            ⟨mappings, hspells⟩ | ⟨reason, hrows, other, hmem, hunknown⟩
          · obtain ⟨hnames, hids, htypes, hdirections⟩ := hspells
            refine .inl ⟨{ topicId, name, typeName, direction } :: mappings, ?_⟩
            exact ⟨congrArg (name :: ·) hnames, congrArg (topicId :: ·) hids,
              congrArg (typeName :: ·) htypes, by rw [List.map_cons, hcode, hdirections]; rfl⟩
          · exact .inr ⟨reason, by rw [hrows]; rfl, other, List.mem_cons_of_mem code hmem, hunknown⟩

theorem rows_of_spells (h : message.Spells mappings) :
    rows message.names message.ids message.types message.directions = .ok mappings := by
  rw [h.names, h.ids, h.types, h.codes]
  exact rows_map h.directions_known

theorem ofMessage_of_spells (h : message.Spells mappings) :
    ofMessage message = ofMappings mappings := by
  rw [ofMessage, h.even.commonLength]
  change rows _ _ _ _ >>= ofMappings = _
  rw [rows_of_spells h]
  rfl

/-- Every row has a mapping, or the message is malformed. -/
theorem spells_or_malformed (message : MappingMessage) :
    (∃ mappings, message.Spells mappings) ∨
      (¬ message.Even ∨ ∃ code ∈ message.directions, code ≠ 0 ∧ code ≠ 1) ∧
        ∃ reason, ofMessage message = .error (.malformedNegotiation reason) := by
  by_cases heven : message.Even
  · rcases rows_cases heven with ⟨mappings, hspells⟩ | ⟨reason, hrows, hunknown⟩
    · exact .inl ⟨mappings, hspells⟩
    · refine .inr ⟨.inr hunknown, reason, ?_⟩
      rw [ofMessage, heven.commonLength]
      change rows _ _ _ _ >>= ofMappings = _
      rw [hrows]
      rfl
  · obtain ⟨reason, hreason⟩ := MappingMessage.commonLength_of_not_even heven
    refine .inr ⟨.inl heven, reason, ?_⟩
    rw [ofMessage, hreason]
    rfl

theorem exists_spells_iff :
    (∃ mappings, message.Spells mappings) ↔
      message.Even ∧ ∀ code ∈ message.directions, code = 0 ∨ code = 1 := by
  constructor
  · rintro ⟨mappings, hspells⟩
    exact ⟨hspells.even, hspells.codes_known⟩
  · rintro ⟨heven, hknown⟩
    rcases spells_or_malformed message with hspells | ⟨hodd | ⟨code, hcode, hunknown⟩, -⟩
    · exact hspells
    · exact absurd heven hodd
    · exact absurd (hknown code hcode) (not_or.mpr hunknown)

theorem exists_spells_of_ofMessage {table : Table} (h : ofMessage message = .ok table) :
    ∃ mappings, message.Spells mappings ∧ table.Lists mappings := by
  rcases spells_or_malformed message with ⟨mappings, hspells⟩ | ⟨-, reason, hmalformed⟩
  · rw [ofMessage_of_spells hspells] at h
    exact ⟨mappings, hspells, lists_of_ofMappings h⟩
  · cases hmalformed.symm.trans h

/-- A list is accepted if and only if it is admissible, and the table then has just its mappings,
each under its id, by ascending id and by direction, in whatever order they were listed. The error
of another list is that of the first mapping that is faulty behind those before it. A message is
accepted if and only if its sequences have one length, its codes are known and its rows are an
accepted list; a length or a code amiss anywhere is malformed before any row counts, and no row is
looked for out of range. -/
theorem accepts_and_indexes (mappings : List TopicMapping) (message : MappingMessage) :
    ((∃ table, ofMappings mappings = .ok table) ↔ Admissible mappings) ∧
    (∀ table, ofMappings mappings = .ok table →
      (∀ id mapping, table.find? id = some mapping ↔ mapping ∈ mappings ∧ mapping.topicId = id) ∧
      table.mappings.Perm mappings ∧
      (table.mappings.Pairwise fun a b => a.topicId < b.topicId) ∧
      (∀ mapping, mapping ∈ table.inbound ↔
        mapping ∈ mappings ∧ mapping.direction = .serialToHost) ∧
      (∀ mapping, mapping ∈ table.outbound ↔
        mapping ∈ mappings ∧ mapping.direction = .hostToSerial) ∧
      (table.inbound ++ table.outbound).Perm mappings ∧
      ∀ other, other.Perm mappings → ofMappings other = .ok table) ∧
    (∀ cause, ofMappings mappings = .error cause ↔ FirstFault mappings cause) ∧
    ((∃ rows, message.Spells rows) ↔
      message.Even ∧ ∀ code ∈ message.directions, code = 0 ∨ code = 1) ∧
    ((∃ table, ofMessage message = .ok table) ↔
      message.Even ∧ (∀ code ∈ message.directions, code = 0 ∨ code = 1) ∧
        ∃ rows, message.Spells rows ∧ ∃ table, ofMappings rows = .ok table) ∧
    (∀ rows, message.Spells rows → ofMessage message = ofMappings rows) ∧
    ((¬ message.Even ∨ ∃ code ∈ message.directions, code ≠ 0 ∧ code ≠ 1) →
      ∃ reason, ofMessage message = .error (.malformedNegotiation reason)) ∧
    message.tableAt? = some (ofMessage message) := by
  refine ⟨ofMappings_eq_ok_iff, ?_, fun cause => ofMappings_eq_error_iff, exists_spells_iff,
    ?_, fun rows => ofMessage_of_spells, ?_, message.tableAt?_eq⟩
  · intro table htable
    have hlists := lists_of_ofMappings htable
    exact ⟨fun id mapping => hlists.find?_eq_some_iff, hlists.perm, hlists.proper.ascending,
      fun mapping => hlists.mem_inbound, fun mapping => hlists.mem_outbound,
      hlists.inbound_append_outbound, fun other => hlists.ofMappings_perm⟩
  · constructor
    · rintro ⟨table, htable⟩
      obtain ⟨rows, hspells, hlists⟩ := exists_spells_of_ofMessage htable
      exact ⟨hspells.even, hspells.codes_known, rows, hspells,
        ofMappings_eq_ok_iff.mpr hlists.admissible⟩
    · rintro ⟨-, -, rows, hspells, haccepted⟩
      rw [ofMessage_of_spells hspells]
      exact haccepted
  · intro hamiss
    rcases spells_or_malformed message with ⟨rows, hspells⟩ | ⟨-, hmalformed⟩
    · rcases hamiss with hodd | ⟨code, hcode, hunknown⟩
      · exact absurd hspells.even hodd
      · exact absurd (hspells.codes_known code hcode) (not_or.mpr hunknown)
    · exact hmalformed

/-- The second mapping of an id is the faulty one, though a reserved id comes after it. -/
example :
    ofMappings [⟨5, "a", "A", .serialToHost⟩, ⟨5, "b", "B", .hostToSerial⟩,
      ⟨0, "c", "C", .serialToHost⟩] = .error (.duplicateTopicId 5 "a" "b") := rfl

end Table
end TopicBridge
