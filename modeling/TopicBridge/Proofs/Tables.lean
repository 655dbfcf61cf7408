import TopicBridge.Topic.Table
import TopicBridge.Proofs.Messages

/-! Tables that can be built. Each way of building one lets in only mappings of known direction
under their own ids, which are free and occur once, so that a look by id finds a mapping exactly if
the table has it, and a table is built again from its own message. -/
namespace TopicBridge

deriving instance DecidableEq for OrderedMap
deriving instance DecidableEq for Table

namespace OrderedMap
variable {κ ν : Type} [LT κ]

theorem eq_of_entries {map other : OrderedMap κ ν} (h : map.entries = other.entries) :
    map = other := by
  cases map
  cases other
  cases h
  rfl

theorem place_last [DecidableLT κ] [DecidableEq κ] [LE κ] [Std.IsLinearOrder κ]
    [Std.LawfulOrderLT κ] {key : κ} (value : ν) {entries : List (κ × ν)}
    (h : ∀ entry ∈ entries, entry.1 < key) :
    place key value entries = entries ++ [(key, value)] := by
  induction entries with
  | nil => rfl
  | cons first rest ih =>
      obtain ⟨hfirst, hrest⟩ := List.forall_mem_cons.mp h
      have hnotfirst : ¬ key < first.1 := by
        intro hlt
        exact Std.lt_irrefl (Std.lt_trans hlt hfirst)
      rw [place, if_neg hnotfirst, if_neg (Std.ne_of_lt hfirst).symm, ih hrest, List.cons_append]

/-- Keys in ascending order are different, so an entry is found under its key. -/
theorem find?_eq_some_iff [DecidableEq κ] [LE κ] [Std.IsLinearOrder κ] [Std.LawfulOrderLT κ]
    {map : OrderedMap κ ν} {key : κ} {value : ν} :
    map.find? key = some value ↔ (key, value) ∈ map.entries := by
  obtain ⟨entries, hascending⟩ := map
  simp only [find?]
  induction entries with
  | nil => simp
  | cons first rest ih =>
      obtain ⟨hfirst, hrest⟩ := List.pairwise_cons.mp hascending
      by_cases hkey : first.1 = key
      · have hnotrest : (key, value) ∉ rest := by
          intro hmem
          exact (Std.ne_of_lt (hfirst _ hmem)) hkey
        simp [hkey, hnotrest, Prod.ext_iff, eq_comm]
      · simp only [List.find?_cons, hkey, decide_false]
        rw [ih hrest, List.mem_cons]
        constructor
        · exact .inr
        · rintro (rfl | hmem)
          · exact absurd rfl hkey
          · exact hmem

end OrderedMap

namespace Table
variable {table next : Table} {mapping : TopicMapping} {mappings : List TopicMapping}

/-- A table that one of the ways of building tables has given. -/
inductive Built (table : Table) : Prop
  | mappings {mappings : List TopicMapping} : ofMappings mappings = .ok table → Built table
  | parameters {params : Parameters} : ofParameters params = .ok table → Built table
  | message {message : MappingMessage} : ofMessage message = .ok table → Built table

/-- A mapping of known direction under its own id, which is not reserved. -/
structure Placed (entry : UInt8 × TopicMapping) : Prop where
  keyed : entry.1 = entry.2.topicId
  free : Topic.isReserved entry.2.topicId = false
  known : entry.2.direction ≠ .unknown

def Proper (table : Table) : Prop := ∀ entry ∈ table.topics.entries, Placed entry

theorem add_eq_ok_iff :
    table.add mapping = .ok next ↔
      Placed (mapping.topicId, mapping) ∧ table.find? mapping.topicId = none ∧
        next = ⟨table.topics.insert mapping.topicId mapping⟩ := by
  have hplaced : Placed (mapping.topicId, mapping) ↔
      mapping.direction ≠ .unknown ∧ Topic.isReserved mapping.topicId = false :=
    ⟨fun h => ⟨h.known, h.free⟩, fun h => ⟨rfl, h.2, h.1⟩⟩
  rw [hplaced]
  unfold add
  split
  · next hunknown => simp [hunknown]
  · next hknown =>
      split
      · next hreserved => simp [hreserved]
      · next hfree =>
          split
          · next first hfirst => simp [hfirst]
          · next hnone => simp [hknown, hfree, hnone, eq_comm]

theorem proper_empty : empty.Proper := List.forall_mem_nil _

theorem Proper.add (h : table.Proper) (hadd : table.add mapping = .ok next) : next.Proper := by
  obtain ⟨hplaced, -, rfl⟩ := add_eq_ok_iff.mp hadd
  intro entry hentry
  rcases OrderedMap.mem_place hentry with rfl | hold
  · exact hplaced
  · exact h entry hold

theorem Proper.foldlM (h : table.Proper) (hadd : mappings.foldlM Table.add table = .ok next) :
    next.Proper := by
  induction mappings generalizing table with
  | nil =>
      cases hadd
      exact h
  | cons mapping rest ih =>
      rw [List.foldlM_cons] at hadd
      cases hfirst : table.add mapping with
      | error cause =>
          rw [hfirst] at hadd
          cases hadd
      | ok middle =>
          rw [hfirst] at hadd
          exact ih (h.add hfirst) hadd

theorem proper_of_ofMappings (h : ofMappings mappings = .ok table) : table.Proper :=
  proper_empty.foldlM h

theorem exists_of_bind_eq_ok {α β : Type} {first : Except BridgeError α}
    {more : α → Except BridgeError β} {b : β} (h : first >>= more = .ok b) :
    ∃ a, more a = .ok b := by
  cases first with
  | error cause => cases h
  | ok a => exact ⟨a, h⟩

/-- In the end every way of building a table builds it from a list. -/
theorem Built.proper (h : table.Built) : table.Proper := by
  cases h with
  | mappings h => exact proper_of_ofMappings h
  | parameters h =>
      obtain ⟨_, h⟩ := exists_of_bind_eq_ok h
      obtain ⟨_, h⟩ := exists_of_bind_eq_ok h
      exact proper_of_ofMappings h
  | message h =>
      obtain ⟨_, h⟩ := exists_of_bind_eq_ok h
      obtain ⟨_, h⟩ := exists_of_bind_eq_ok h
      exact proper_of_ofMappings h

theorem Proper.find?_eq_some_iff (h : table.Proper) {id : UInt8} :
    table.find? id = some mapping ↔ mapping ∈ table.mappings ∧ mapping.topicId = id := by
  rw [find?, OrderedMap.find?_eq_some_iff, Table.mappings, OrderedMap.values, List.mem_map]
  constructor
  · intro hentry
    exact ⟨⟨_, hentry, rfl⟩, (h _ hentry).keyed.symm⟩
  · rintro ⟨⟨entry, hentry, rfl⟩, rfl⟩
    rw [← (h entry hentry).keyed]
    exact hentry

theorem Proper.placed (h : table.Proper) (hmapping : mapping ∈ table.mappings) :
    Placed (mapping.topicId, mapping) := by
  obtain ⟨entry, hentry, rfl⟩ := List.mem_map.mp hmapping
  have hplaced := h entry hentry
  exact ⟨rfl, hplaced.free, hplaced.known⟩

theorem commonLength_toMessage (table : Table) :
    table.toMessage.commonLength = .ok table.mappings.length := by
  simp [MappingMessage.commonLength, toMessage]

theorem ofCode?_code? {direction : Direction} (h : direction ≠ .unknown) :
    Direction.ofCode? (direction.code?.getD 0) = some direction := by
  cases direction with
  | serialToHost => rfl
  | hostToSerial => rfl
  | unknown => exact absurd rfl h

theorem rows_map (h : ∀ mapping ∈ mappings, mapping.direction ≠ .unknown) :
    rows (mappings.map (·.name)) (mappings.map (·.topicId)) (mappings.map (·.typeName))
      (mappings.map fun mapping => mapping.direction.code?.getD 0) = .ok mappings := by
  induction mappings with
  | nil => rfl
  | cons mapping rest ih =>
      obtain ⟨hfirst, hrest⟩ := List.forall_mem_cons.mp h
      simp only [List.map_cons, rows, ofCode?_code? hfirst, ih hrest]
      rfl

/-- Entries that go on in ascending order are added one behind the other. -/
theorem foldlM_add_entries {front back : List (UInt8 × TopicMapping)}
    (hascending : (front ++ back).Pairwise fun a b => a.1 < b.1)
    (hplaced : ∀ entry ∈ back, Placed entry) (htable : table.topics.entries = front) :
    ∃ next, (back.map (·.2)).foldlM add table = .ok next ∧ next.topics.entries = front ++ back := by
  induction back generalizing front table with
  | nil => exact ⟨table, rfl, by rw [htable, List.append_nil]⟩
  | cons entry rest ih =>
      obtain ⟨key, mapping⟩ := entry
      obtain ⟨hfirst, hrest⟩ := List.forall_mem_cons.mp hplaced
      obtain rfl : key = mapping.topicId := hfirst.keyed
      have hbefore : ∀ other ∈ table.topics.entries, other.1 < mapping.topicId := by
        intro other hother
        rw [htable] at hother
        exact (List.pairwise_append.mp hascending).2.2 other hother _ List.mem_cons_self
      have hnone : table.find? mapping.topicId = none := by
        rw [Option.eq_none_iff_forall_ne_some]
        intro other hother
        exact Std.lt_irrefl (hbefore _ (OrderedMap.find?_eq_some_iff.mp hother))
      have hadd := add_eq_ok_iff.mpr ⟨hfirst, hnone, rfl⟩
      have hentries : (table.topics.insert mapping.topicId mapping).entries =
          front ++ [(mapping.topicId, mapping)] :=
        htable ▸ OrderedMap.place_last mapping hbefore
      rw [List.append_cons] at hascending ⊢
      obtain ⟨next, hnext, hlast⟩ := ih hascending hrest hentries
      refine ⟨next, ?_, hlast⟩
      rw [List.map_cons, List.foldlM_cons, hadd]
      exact hnext

theorem Proper.ofMappings_mappings (h : table.Proper) : ofMappings table.mappings = .ok table := by
  have hempty : empty.topics.entries = [] := rfl
  have hascending := table.topics.ascending
  rw [← List.nil_append table.topics.entries] at hascending
  obtain ⟨next, hnext, hentries⟩ := foldlM_add_entries hascending h hempty
  obtain rfl : next = table := by
    cases next
    cases table
    rw [mk.injEq]
    exact OrderedMap.eq_of_entries hentries
  exact hnext

/-- The message of a table describes just this table. -/
theorem Proper.ofMessage_toMessage (h : table.Proper) : ofMessage table.toMessage = .ok table := by
  have hrows : rows table.toMessage.names table.toMessage.ids table.toMessage.types
      table.toMessage.directions = .ok table.mappings :=
    rows_map fun mapping hmapping => (h.placed hmapping).known
  rw [ofMessage, commonLength_toMessage]
  change rows _ _ _ _ >>= ofMappings = _
  rw [hrows]
  exact h.ofMappings_mappings

def imu : TopicMapping :=
  { topicId := 5, name := "imu", typeName := "Imu", direction := .serialToHost }

def imuTable : Table := ⟨OrderedMap.empty.insert imu.topicId imu⟩

end Table
end TopicBridge
