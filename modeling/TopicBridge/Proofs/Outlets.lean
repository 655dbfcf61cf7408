import TopicBridge.Host.Stdio
import TopicBridge.Proofs.Configured
import TopicBridge.Proofs.Dispatching

/-! Outbound topics by their names. A host that speaks in lines refuses no topic and is left with one
handle for a name, that of the outbound topic with the highest id. A topic that shares its name with
no other outbound one is always the one that is left. -/
namespace TopicBridge

def TopicMapping.handle (headerLength : Nat) (mapping : TopicMapping) : OutboundTopic :=
  ⟨mapping.topicId, mapping.name, headerLength⟩

namespace Table
variable {table : Table} {name : String} {mapping other : TopicMapping}

/-- Of the outbound topics of a name the one with the highest id. -/
structure Outlet (table : Table) (name : String) (mapping : TopicMapping) : Prop where
  outbound : mapping ∈ table.outbound
  named : mapping.name = name
  last : ∀ other ∈ table.outbound, other.name = name → other.topicId ≤ mapping.topicId

/-- The last outbound topic of a name. -/
def outlet? (table : Table) (name : String) : Option TopicMapping :=
  table.outbound.reverse.find? fun mapping => mapping.name = name

/-- Handles of topics, each under its name in the stead of an earlier one. -/
def handles (headerLength : Nat) (mappings : List TopicMapping)
    (start : OrderedMap String OutboundTopic) : OrderedMap String OutboundTopic :=
  mappings.foldl (fun map mapping => map.insert mapping.name (mapping.handle headerLength)) start

theorem find?_handles (headerLength : Nat) (mappings : List TopicMapping)
    (start : OrderedMap String OutboundTopic) (name : String) :
    (handles headerLength mappings start).find? name =
      ((mappings.reverse.find? fun mapping => mapping.name = name).map
        (·.handle headerLength)).or (start.find? name) := by
  have hentries : handles headerLength mappings start =
      start.insertAll (mappings.map fun mapping => (mapping.name, mapping.handle headerLength)) := by
    rw [handles, OrderedMap.insertAll, List.foldl_map]
  rw [hentries, OrderedMap.find?_insertAll, ← List.map_reverse, List.find?_map, Option.map_map]
  rfl

theorem Proper.outbound_ascending (h : table.Proper) :
    table.outbound.Pairwise fun a b => a.topicId < b.topicId := h.ascending.filter _

theorem outlet_of_outlet? (h : table.Proper) (houtlet : table.outlet? name = some mapping) :
    table.Outlet name mapping := by
  obtain ⟨hname, later, earlier, hsplit, hlater⟩ := List.find?_eq_some_iff_append.mp houtlet
  have houtbound : table.outbound = earlier.reverse ++ mapping :: later.reverse := by
    rw [← List.reverse_reverse table.outbound, hsplit]
    simp
  have hascending := h.outbound_ascending
  rw [houtbound] at hascending
  refine ⟨by simp [houtbound], of_decide_eq_true hname, fun other hother hsame => ?_⟩
  rw [houtbound, List.mem_append, List.mem_cons, List.mem_reverse, List.mem_reverse] at hother
  rcases hother with hearlier | rfl | hmem
  · exact Std.le_of_lt ((List.pairwise_append.mp hascending).2.2 other
      (List.mem_reverse.mpr hearlier) mapping List.mem_cons_self)
  · exact Std.le_refl _
  · have hnot := hlater other hmem
    simp [hsame] at hnot

theorem Outlet.eq (h : table.Proper) (houtlet : table.Outlet name mapping)
    (hother : table.Outlet name other) : other = mapping := by
  have hid : other.topicId = mapping.topicId :=
    Std.le_antisymm (houtlet.last other hother.outbound hother.named)
      (hother.last mapping houtlet.outbound houtlet.named)
  have hfind := h.find?_eq_some_iff.mpr ⟨(List.mem_filter.mp houtlet.outbound).1, rfl⟩
  exact h.eq_of_find? hfind (List.mem_filter.mp hother.outbound).1 hid

theorem outlet?_eq_none_iff :
    table.outlet? name = none ↔ ∀ mapping ∈ table.outbound, mapping.name ≠ name := by
  rw [outlet?, List.find?_eq_none]
  simp

/-- A topic that shares its name with no other outbound one is the outlet of the name. -/
theorem outlet_of_unshared (h : mapping ∈ table.outbound)
    (hunshared : ∀ other ∈ table.outbound, other.name = mapping.name → other = mapping) :
    table.Outlet mapping.name mapping := by
  refine ⟨h, rfl, fun other hother hname => ?_⟩
  rw [hunshared other hother hname]
  exact Std.le_refl _

/-- Topics from parameters share no names. -/
theorem outlet_of_parameters {params : Parameters} (h : ofParameters params = .ok table)
    (hmapping : mapping ∈ table.outbound) : table.Outlet mapping.name mapping := by
  have hwell : WellFormed params := ofParameters_eq_ok_iff.mp ⟨table, h⟩
  obtain ⟨mappings, hlines, hlists⟩ := hwell.lists h
  have hdescribed : ∀ {mapping}, mapping ∈ table.outbound → Described params mapping :=
    fun hmem => (hlines.mem_iff _).mp (hlists.mem_outbound.mp hmem).1
  exact outlet_of_unshared hmapping fun other hother hname =>
    (hdescribed hmapping).eq (hdescribed hother) hname

end Table

namespace Bridge
variable {table : Table} {endpoint : Endpoint}

/-- This host refuses no topic. -/
theorem register_stdio (headerLength : Nat) {mappings : List TopicMapping}
    (hknown : ∀ mapping ∈ mappings, mapping.direction ≠ .unknown) (host : StdioHost) :
    register headerLength mappings host =
      (.ok (mappings.filter fun mapping => mapping.direction = .serialToHost),
       { host with
         outbound := Table.handles headerLength
           (mappings.filter fun mapping => mapping.direction = .hostToSerial) host.outbound }) := by
  induction mappings generalizing host with
  | nil => rfl
  | cons mapping rest ih =>
      obtain ⟨hfirst, hrest⟩ := List.forall_mem_cons.mp hknown
      cases hdirection : mapping.direction with
      | serialToHost =>
          have hone : registerOne headerLength host mapping = .ok ([mapping], host) := by
            rw [registerOne, hdirection]
            rfl
          rw [register, hone]
          dsimp only
          rw [ih hrest host]
          simp [hdirection, Except.map]
      | hostToSerial =>
          have hone : registerOne headerLength host mapping = .ok ([], { host with
              outbound := host.outbound.insert mapping.name (mapping.handle headerLength) }) := by
            rw [registerOne, hdirection]
            rfl
          rw [register, hone]
          dsimp only
          rw [ih hrest]
          simp [hdirection, Except.map, Table.handles]
      | unknown => exact absurd hdirection hfirst

theorem start_stdio (hproper : table.Proper) (host : StdioHost) :
    start endpoint table host = .ok
      { endpoint
        host := { host with
          outbound := Table.handles endpoint.headerLength table.outbound host.outbound }
        table
        routes := table.inbound } := by
  rw [start, register_stdio _ fun mapping hmapping => (hproper.placed hmapping).known]
  rfl

end Bridge

end TopicBridge
