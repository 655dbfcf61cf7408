import TopicBridge.Proofs.Tables

/-! Tables from lists of mappings. A list gives a table exactly if none of its mappings is faulty
behind those listed before it. The table then holds just the listed mappings by ascending id,
however the list is ordered; otherwise the error is that of the first faulty mapping. -/
namespace TopicBridge

namespace OrderedMap
variable {κ ν : Type} [LT κ] [DecidableLT κ] [DecidableEq κ]

theorem place_perm {key : κ} (value : ν) {entries : List (κ × ν)}
    (h : ∀ entry ∈ entries, entry.1 ≠ key) :
    (place key value entries).Perm ((key, value) :: entries) := by
  induction entries with
  | nil => exact .refl _
  | cons first rest ih =>
      obtain ⟨hfirst, hrest⟩ := List.forall_mem_cons.mp h
      rw [place]
      split
      · exact .refl _
      · rw [if_neg hfirst.symm]
        exact ((ih hrest).cons first).trans (.swap ..)

theorem find?_place (key other : κ) (value : ν) (entries : List (κ × ν)) :
    ((place key value entries).find? fun entry => entry.1 = other).map (·.2) =
      if other = key then some value
      else (entries.find? fun entry => entry.1 = other).map (·.2) := by
  induction entries with
  | nil => by_cases h : other = key <;> simp [place, h, eq_comm]
  | cons first rest ih =>
      rw [place]
      split
      · by_cases h : other = key <;> simp [h, eq_comm]
      · split
        · next heq => by_cases h : other = key <;> simp [h, ← heq, eq_comm]
        · next hne =>
            by_cases hfirst : first.1 = other
            · subst hfirst
              simp [Ne.symm hne]
            · simp only [List.find?_cons, hfirst, decide_false]
              exact ih

variable [LE κ] [Std.IsLinearOrder κ] [Std.LawfulOrderLT κ]

/-- An insertion is seen under its key and nowhere else. -/
theorem find?_insert (map : OrderedMap κ ν) (key other : κ) (value : ν) :
    (map.insert key value).find? other = if other = key then some value else map.find? other :=
  find?_place key other value map.entries

/-- Of several values for a key the last one is seen. -/
theorem find?_insertAll (map : OrderedMap κ ν) (entries : List (κ × ν)) (key : κ) :
    (map.insertAll entries).find? key =
      ((entries.reverse.find? fun entry => entry.1 = key).map (·.2)).or (map.find? key) := by
  induction entries generalizing map with
  | nil => rfl
  | cons entry rest ih =>
      have hstep : map.insertAll (entry :: rest) =
          (map.insert entry.1 entry.2).insertAll rest := rfl
      rw [hstep, ih, List.reverse_cons, List.find?_append, find?_insert]
      cases rest.reverse.find? fun entry => entry.1 = key with
      | some last => rfl
      | none =>
          by_cases hkey : key = entry.1
          · simp [hkey]
          · simp [hkey, Ne.symm hkey]

end OrderedMap

namespace Table
variable {table next : Table} {mapping : TopicMapping} {mappings front : List TopicMapping}
  {cause : BridgeError}

/-- Known directions, ids that are free for applications, and no id twice. -/
structure Admissible (mappings : List TopicMapping) : Prop where
  known : ∀ mapping ∈ mappings, mapping.direction ≠ .unknown
  free : ∀ mapping ∈ mappings, Topic.isReserved mapping.topicId = false
  distinct : (mappings.map (·.topicId)).Nodup

/-- What is wrong with a mapping behind those that come before it. -/
inductive Faulty (before : List TopicMapping) (mapping : TopicMapping) : BridgeError → Prop
  | unknown : mapping.direction = .unknown →
      Faulty before mapping (.invalidDirection mapping.name "Unknown")
  | reserved : mapping.direction ≠ .unknown → Topic.isReserved mapping.topicId = true →
      Faulty before mapping (.reservedTopicId mapping.name mapping.topicId)
  | duplicate {first : TopicMapping} : mapping.direction ≠ .unknown →
      Topic.isReserved mapping.topicId = false → first ∈ before →
      first.topicId = mapping.topicId →
      Faulty before mapping (.duplicateTopicId mapping.topicId first.name mapping.name)

/-- The error of the first mapping that is faulty behind those before it. -/
def FirstFault (mappings : List TopicMapping) (cause : BridgeError) : Prop :=
  ∃ front mapping back, mappings = front ++ mapping :: back ∧ Admissible front ∧
    Faulty front mapping cause

theorem Admissible.perm {other : List TopicMapping} (h : Admissible mappings)
    (hperm : other.Perm mappings) : Admissible other :=
  ⟨fun _ hmem => h.known _ (hperm.mem_iff.mp hmem), fun _ hmem => h.free _ (hperm.mem_iff.mp hmem),
    (hperm.map _).nodup_iff.mpr h.distinct⟩

theorem Admissible.left {back : List TopicMapping} (h : Admissible (front ++ back)) :
    Admissible front :=
  ⟨fun _ hmem => h.known _ (List.mem_append_left _ hmem),
    fun _ hmem => h.free _ (List.mem_append_left _ hmem),
    (h.distinct.sublist ((List.sublist_append_left front back).map _))⟩

theorem Faulty.perm {other : List TopicMapping} (h : Faulty front mapping cause)
    (hperm : other.Perm front) : Faulty other mapping cause := by
  cases h with
  | unknown hunknown => exact .unknown hunknown
  | reserved hknown hreserved => exact .reserved hknown hreserved
  | duplicate hknown hfree hfirst hid =>
      exact .duplicate hknown hfree (hperm.mem_iff.mpr hfirst) hid

/-- A list goes on admissibly exactly if the next mapping is not faulty. -/
theorem Admissible.concat_iff (h : Admissible front) :
    Admissible (front ++ [mapping]) ↔ ∀ cause, ¬ Faulty front mapping cause := by
  constructor
  · rintro ⟨hknown, hfree, hdistinct⟩ cause hfaulty
    have hmem : mapping ∈ front ++ [mapping] := List.mem_append_right _ List.mem_cons_self
    cases hfaulty with
    | unknown hunknown => exact hknown mapping hmem hunknown
    | reserved _ hreserved =>
        rw [hfree mapping hmem] at hreserved
        cases hreserved
    | duplicate _ _ hfirst hid =>
        rw [List.map_append, List.nodup_append] at hdistinct
        exact hdistinct.2.2 _ (List.mem_map_of_mem hfirst) _ List.mem_cons_self hid
  · intro hfaultless
    have hknown : mapping.direction ≠ .unknown := fun hunknown => hfaultless _ (.unknown hunknown)
    have hfree : Topic.isReserved mapping.topicId = false :=
      eq_false_of_ne_true fun hreserved => hfaultless _ (.reserved hknown hreserved)
    refine ⟨List.forall_mem_append.mpr ⟨h.known, List.forall_mem_singleton.mpr hknown⟩,
      List.forall_mem_append.mpr ⟨h.free, List.forall_mem_singleton.mpr hfree⟩, ?_⟩
    rw [List.map_append, List.nodup_append]
    refine ⟨h.distinct, List.pairwise_singleton _ _, ?_⟩
    rintro _ hid _ hother rfl
    obtain ⟨first, hfirst, hsame⟩ := List.mem_map.mp hid
    exact hfaultless _ (.duplicate hknown hfree hfirst (hsame.trans (List.mem_singleton.mp hother)))

theorem Proper.add_eq_error_iff (h : table.Proper) :
    table.add mapping = .error cause ↔ Faulty table.mappings mapping cause := by
  constructor
  · intro hadd
    unfold Table.add at hadd
    split at hadd
    · next hunknown =>
        cases hadd
        rw [hunknown]
        exact .unknown hunknown
    · next hknown =>
        split at hadd
        · next hreserved =>
            cases hadd
            exact .reserved hknown hreserved
        · next hfree =>
            split at hadd
            · next first hfirst =>
                cases hadd
                obtain ⟨hmem, hid⟩ := h.find?_eq_some_iff.mp hfirst
                exact .duplicate hknown (eq_false_of_ne_true hfree) hmem hid
            · cases hadd
  · intro hfaulty
    cases hfaulty with
    | unknown hunknown =>
        rw [Table.add, if_pos hunknown, hunknown]
        rfl
    | reserved hknown hreserved => rw [Table.add, if_neg hknown, if_pos hreserved]
    | @duplicate first hknown hfree hfirst hid =>
        have hfound := h.find?_eq_some_iff.mpr ⟨hfirst, hid⟩
        rw [Table.add, if_neg hknown, hfree, hfound]
        rfl

theorem Proper.entries_eq (h : table.Proper) :
    table.topics.entries = table.mappings.map fun mapping => (mapping.topicId, mapping) := by
  rw [Table.mappings, OrderedMap.values, List.map_map]
  refine (List.map_id _).symm.trans (List.map_congr_left fun entry hentry => ?_)
  exact Prod.ext (h entry hentry).keyed rfl

theorem Proper.ascending (h : table.Proper) :
    table.mappings.Pairwise fun a b => a.topicId < b.topicId := by
  have hascending := table.topics.ascending
  rw [h.entries_eq, List.pairwise_map] at hascending
  exact hascending

theorem Proper.admissible (h : table.Proper) : Admissible table.mappings :=
  ⟨fun _ hmapping => (h.placed hmapping).known, fun _ hmapping => (h.placed hmapping).free,
    List.pairwise_map.mpr (h.ascending.imp fun hlt => Std.ne_of_lt hlt)⟩

theorem mappings_of_add (h : table.add mapping = .ok next) :
    next.mappings.Perm (table.mappings ++ [mapping]) := by
  obtain ⟨-, hnone, rfl⟩ := add_eq_ok_iff.mp h
  have hfresh : ∀ entry ∈ table.topics.entries, entry.1 ≠ mapping.topicId := by
    intro entry hentry hkey
    have hfound : table.topics.find? mapping.topicId = some entry.2 := by
      rw [OrderedMap.find?_eq_some_iff, ← hkey]
      exact hentry
    rw [find?, hfound] at hnone
    cases hnone
  have hplaced := (OrderedMap.place_perm mapping hfresh).map (·.2)
  exact hplaced.trans (List.perm_append_singleton ..).symm

/-- A table that holds just the mappings of a list. -/
structure Lists (table : Table) (mappings : List TopicMapping) : Prop where
  proper : table.Proper
  perm : table.mappings.Perm mappings

theorem lists_empty : empty.Lists [] := ⟨proper_empty, .nil⟩

theorem Lists.admissible (h : table.Lists mappings) : Admissible mappings :=
  h.proper.admissible.perm h.perm.symm

/-- One mapping more is in the table, or its fault is the error. -/
theorem Lists.add (h : table.Lists front) (mapping : TopicMapping) :
    (∃ next, table.add mapping = .ok next ∧ next.Lists (front ++ [mapping])) ∨
      ∃ cause, table.add mapping = .error cause ∧ Faulty front mapping cause := by
  cases hadd : table.add mapping with
  | ok next =>
      exact .inl ⟨next, rfl, h.proper.add hadd,
        (mappings_of_add hadd).trans (h.perm.append_right _)⟩
  | error cause =>
      exact .inr ⟨cause, rfl, (h.proper.add_eq_error_iff.mp hadd).perm h.perm.symm⟩

/-- A list goes into the table as a whole, or its first fault is the error. -/
theorem Lists.foldlM (h : table.Lists front) (mappings : List TopicMapping) :
    (∃ next, mappings.foldlM Table.add table = .ok next ∧ next.Lists (front ++ mappings)) ∨
      ∃ cause, mappings.foldlM Table.add table = .error cause ∧
        FirstFault (front ++ mappings) cause := by
  induction mappings generalizing table front with
  | nil => exact .inl ⟨table, rfl, (List.append_nil front).symm ▸ h⟩
  | cons mapping rest ih =>
      rw [List.foldlM_cons]
      rcases h.add mapping with ⟨next, hadd, hnext⟩ | ⟨cause, hadd, hfaulty⟩
      · rw [hadd, List.append_cons]
        exact ih hnext
      · rw [hadd]
        exact .inr ⟨cause, rfl, front, mapping, rest, rfl, h.admissible, hfaulty⟩

theorem FirstFault.not_admissible (h : FirstFault mappings cause) : ¬ Admissible mappings := by
  obtain ⟨front, mapping, back, rfl, hfront, hfaulty⟩ := h
  intro hadmissible
  rw [List.append_cons] at hadmissible
  exact hfront.concat_iff.mp hadmissible.left cause hfaulty

theorem lists_ofMappings (h : Admissible mappings) :
    ∃ table, ofMappings mappings = .ok table ∧ table.Lists mappings := by
  rcases lists_empty.foldlM mappings with hlists | ⟨cause, -, hfault⟩
  · exact hlists
  · exact absurd h hfault.not_admissible

theorem lists_of_ofMappings (h : ofMappings mappings = .ok table) : table.Lists mappings := by
  rcases lists_empty.foldlM mappings with ⟨next, hnext, hlists⟩ | ⟨cause, herror, -⟩
  · cases hnext.symm.trans h
    exact hlists
  · cases herror.symm.trans h

theorem ofMappings_eq_ok_iff :
    (∃ table, ofMappings mappings = .ok table) ↔ Admissible mappings := by
  constructor
  · rintro ⟨table, htable⟩
    exact (lists_of_ofMappings htable).admissible
  · intro h
    obtain ⟨table, htable, -⟩ := lists_ofMappings h
    exact ⟨table, htable⟩

theorem ofMappings_eq_error_iff :
    ofMappings mappings = .error cause ↔ FirstFault mappings cause := by
  constructor
  · intro h
    rcases lists_empty.foldlM mappings with ⟨next, hnext, -⟩ | ⟨other, herror, hfault⟩
    · cases hnext.symm.trans h
    · cases herror.symm.trans h
      exact hfault
  · rintro ⟨front, mapping, back, rfl, hfront, hfaulty⟩
    obtain ⟨table, htable, hlists⟩ := lists_ofMappings hfront
    have hadd : table.add mapping = .error cause :=
      hlists.proper.add_eq_error_iff.mpr (hfaulty.perm hlists.perm)
    have hfold : front.foldlM add empty = .ok table := htable
    rw [ofMappings, List.foldlM_append, hfold]
    change (mapping :: back).foldlM add table = _
    rw [List.foldlM_cons, hadd]
    rfl

/-- Only the listed mappings matter, not their order. -/
theorem Lists.eq (h : table.Lists mappings) (hnext : next.Lists mappings) : next = table := by
  have hsame : next.mappings = table.mappings :=
    List.Perm.eq_of_pairwise
      (fun a b _ _ hab hba => absurd (Std.lt_trans hab hba) Std.lt_irrefl)
      hnext.proper.ascending h.proper.ascending (hnext.perm.trans h.perm.symm)
  have hofNext := hnext.proper.ofMappings_mappings
  rw [hsame, h.proper.ofMappings_mappings] at hofNext
  exact (Except.ok.inj hofNext).symm

theorem Lists.ofMappings_perm (h : table.Lists mappings) {other : List TopicMapping}
    (hperm : other.Perm mappings) : ofMappings other = .ok table := by
  obtain ⟨next, hother, hlists⟩ := lists_ofMappings (h.admissible.perm hperm)
  rw [hother, h.eq ⟨hlists.proper, hlists.perm.trans hperm⟩]

theorem Lists.find?_eq_some_iff (h : table.Lists mappings) {id : UInt8} :
    table.find? id = some mapping ↔ mapping ∈ mappings ∧ mapping.topicId = id := by
  rw [h.proper.find?_eq_some_iff, h.perm.mem_iff]

theorem Lists.mem_inbound (h : table.Lists mappings) :
    mapping ∈ table.inbound ↔ mapping ∈ mappings ∧ mapping.direction = .serialToHost := by
  rw [inbound, List.mem_filter, h.perm.mem_iff, decide_eq_true_eq]

theorem Lists.mem_outbound (h : table.Lists mappings) :
    mapping ∈ table.outbound ↔ mapping ∈ mappings ∧ mapping.direction = .hostToSerial := by
  rw [outbound, List.mem_filter, h.perm.mem_iff, decide_eq_true_eq]

/-- A known direction that is not inbound is outbound. -/
theorem Lists.inbound_append_outbound (h : table.Lists mappings) :
    (table.inbound ++ table.outbound).Perm mappings := by
  have houtbound : table.outbound =
      table.mappings.filter fun mapping => !decide (mapping.direction = .serialToHost) := by
    apply List.filter_congr
    intro mapping hmapping
    have hknown := (h.proper.placed hmapping).known
    cases hdirection : mapping.direction with
    | serialToHost | hostToSerial => rfl
    | unknown => exact absurd hdirection hknown
  rw [houtbound, inbound]
  exact (List.filter_append_perm _ _).trans h.perm

end Table
end TopicBridge
