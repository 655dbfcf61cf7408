import Mathlib.Data.List.Basic
import TopicBridge.Parameter.Document
import TopicBridge.Proofs.Listing

/-! Parameters of a document by the paths to its scalars. A scalar is stored under the texts of the
keys that lead to it, joined by dots, in the stead of an earlier one of that name. Empty keys at the
head of a path leave no dot, so such a scalar takes the name of another path. -/
namespace TopicBridge.Parameters
open Yaml (Scalar Value)
variable {entries : List (Value × Value)} {path : List Value} {params : Parameters}

/-- A key with a text. -/
def Named (key : Value) : Prop := ∃ scalar, scalar ≠ .null ∧ key = .scalar scalar

/-- Scalars below keys with texts, without a sequence or a tag anywhere. -/
inductive Plain : Value → Prop
  | scalar (scalar : Scalar) : Plain (.scalar scalar)
  | mapping {entries : List (Value × Value)} :
      (∀ entry ∈ entries, Named entry.1) → (∀ entry ∈ entries, Plain entry.2) →
      Plain (.mapping entries)

mutual

/-- The scalars below the entries of a mapping, each with the keys that lead to it, in the order
of the document. -/
def leaves : List (Value × Value) → List (List Value × Scalar)
  | [] => []
  | entry :: rest => entryLeaves entry ++ leaves rest

def entryLeaves : Value × Value → List (List Value × Scalar)
  | (key, value) => (valueLeaves value).map fun leaf => (key :: leaf.1, leaf.2)

def valueLeaves : Value → List (List Value × Scalar)
  | .scalar scalar => [([], scalar)]
  | .mapping entries => leaves entries
  | .sequence _ => []
  | .tagged _ _ => []

end

def texts (path : List Value) : List String := path.filterMap keyText?

/-- The texts of all keys on a path, joined by dots. -/
def dotted (path : List Value) : String := ".".intercalate (texts path)

/-- The texts of the keys on a path from the first key on that is not empty, joined by dots. -/
def nameOf (path : List Value) : String := ".".intercalate ((texts path).dropWhile String.isEmpty)

/-- The entries that leaves stand for. A leaf that is nothing stands for none. -/
def stored (name : List Value → String) (found : List (List Value × Scalar)) :
    List (String × ParamValue) :=
  found.filterMap fun leaf => (ofScalar leaf.2).map fun value => (name leaf.1, value)

def nameBelow (above : String) (path : List Value) : String := (texts path).foldl join above

theorem nameBelow_cons {key : Value} {text : String} (h : keyText? key = some text)
    (above : String) (path : List Value) :
    nameBelow above (key :: path) = nameBelow (join above text) path := by
  rw [nameBelow, texts, List.filterMap_cons_some h]
  rfl

theorem join_of_nonempty {above : String} (h : above ≠ "") (key : String) :
    join above key = above ++ "." ++ key := by
  rw [join, String.isEmpty_eq_false_iff.mpr h]
  rfl

theorem foldl_join {above : String} (h : above ≠ "") (keys : List String) :
    keys.foldl join above = ".".intercalate (above :: keys) := by
  induction keys generalizing above with
  | nil => rw [List.foldl_nil, String.intercalate_singleton]
  | cons key keys ih =>
      have hlonger : above ++ "." ++ key ≠ "" := by simp [h]
      rw [List.foldl_cons, join_of_nonempty h, ih hlonger]
      cases keys with
      | nil => simp
      | cons next keys => simp [String.append_assoc]

/-- Below nothing the dots begin behind the first key that is not empty. -/
theorem nameBelow_empty (path : List Value) : nameBelow "" path = nameOf path := by
  rw [nameBelow, nameOf]
  induction texts path with
  | nil => rfl
  | cons key keys ih =>
      by_cases hkey : key = ""
      · subst hkey
        exact ih
      · rw [List.dropWhile_cons_of_neg (by simp [hkey])]
        exact foldl_join hkey keys

theorem isSome_keyText?_iff {key : Value} : (keyText? key).isSome = true ↔ Named key := by
  constructor
  · intro h
    cases key with
    | scalar scalar =>
        refine ⟨scalar, ?_, rfl⟩
        rintro rfl
        cases h
    | sequence items => cases h
    | mapping entries => cases h
    | tagged tag value => cases h
  · rintro ⟨scalar, hscalar, rfl⟩
    cases scalar with
    | null => exact absurd rfl hscalar
    | bool value => rfl
    | int value => rfl
    | float value => rfl
    | string text => rfl

theorem plain_mapping_iff :
    Plain (.mapping entries) ↔ ∀ entry ∈ entries, Named entry.1 ∧ Plain entry.2 := by
  constructor
  · intro h entry hentry
    cases h with
    | mapping hkeys hvalues => exact ⟨hkeys entry hentry, hvalues entry hentry⟩
  · intro h
    exact .mapping (fun entry hentry => (h entry hentry).1) fun entry hentry => (h entry hentry).2

def store (above : String) (params : Parameters) (found : List (List Value × Scalar)) :
    Parameters :=
  params.insertAll (stored (nameBelow above) found)

theorem store_append (above : String) (params : Parameters)
    (found more : List (List Value × Scalar)) :
    store above params (found ++ more) = store above (store above params found) more := by
  simp [store, stored, OrderedMap.insertAll]

/-- A tree that is plain is stored, and one that is not is refused. -/
inductive Settles (plain : Prop) (result : Parameters) : Except Failure Parameters → Prop
  | stored : plain → Settles plain result (.ok result)
  | refused (message : String) : ¬ plain →
      Settles plain result (.error ⟨Failure.dataInvalid, message⟩)

mutual

theorem flatten_settles (above : String) : ∀ (entries : List (Value × Value)) (params : Parameters),
    Settles (Plain (.mapping entries)) (store above params (leaves entries))
      (flatten above entries params)
  | [], params => .stored (plain_mapping_iff.mpr (List.forall_mem_nil _))
  | entry :: rest, params => by
      have hentry := addEntry_settles above entry params
      have hrest := flatten_settles above rest (store above params (entryLeaves entry))
      rw [flatten, leaves, store_append, plain_mapping_iff, List.forall_mem_cons,
        ← plain_mapping_iff]
      generalize addEntry above entry params = outcome at hentry
      cases hentry with
      | stored hplain =>
          show Settles _ _ (flatten above rest (store above params (entryLeaves entry)))
          generalize flatten above rest (store above params (entryLeaves entry)) = outcome at hrest
          cases hrest with
          | stored hmore => exact .stored ⟨hplain, hmore⟩
          | refused message hmore => exact .refused message fun hall => hmore hall.2
      | refused message hplain => exact .refused message fun hall => hplain hall.1

theorem addEntry_settles (above : String) : ∀ (entry : Value × Value) (params : Parameters),
    Settles (Named entry.1 ∧ Plain entry.2) (store above params (entryLeaves entry))
      (addEntry above entry params)
  | (key, value), params => by
      rw [addEntry]
      cases hkey : keyText? key with
      | none =>
          refine .refused _ fun hplain => ?_
          have hnamed := isSome_keyText?_iff.mpr hplain.1
          simp [hkey] at hnamed
      | some text =>
          have hvalue := addValue_settles (join above text) value params
          have hnamed : Named key := isSome_keyText?_iff.mp (by simp [hkey])
          have hstore : store above params (entryLeaves (key, value)) =
              store (join above text) params (valueLeaves value) := by
            simp only [store, stored, entryLeaves, List.filterMap_map, Function.comp_def,
              nameBelow_cons hkey]
          rw [hstore]
          simp only [hnamed, true_and]
          exact hvalue

theorem addValue_settles (name : String) : ∀ (value : Value) (params : Parameters),
    Settles (Plain value) (store name params (valueLeaves value)) (addValue name value params)
  | .scalar scalar, params => by
      have hstore : addValue name (.scalar scalar) params =
          .ok (store name params (valueLeaves (.scalar scalar))) := by
        rw [addValue, store, stored, valueLeaves]
        cases hscalar : ofScalar scalar with
        | none => simp [hscalar, OrderedMap.insertAll]
        | some value => simp [hscalar, OrderedMap.insertAll, nameBelow, texts]
      rw [hstore]
      exact .stored (.scalar scalar)
  | .mapping entries, params => by
      rw [addValue]
      exact flatten_settles name entries params
  | .sequence _, _ => .refused _ nofun
  | .tagged _ _, _ => .refused _ nofun

end

theorem ofScalar_eq_none_iff {scalar : Scalar} : ofScalar scalar = none ↔ scalar = .null := by
  cases scalar with
  | null => exact ⟨fun _ => rfl, fun _ => rfl⟩
  | _ => exact ⟨nofun, nofun⟩

theorem length_dropWhile_le (keys : List String) :
    (".".intercalate (keys.dropWhile String.isEmpty)).length ≤ (".".intercalate keys).length := by
  induction keys with
  | nil => exact Nat.le_refl _
  | cons key keys ih =>
      rw [List.dropWhile_cons]
      split
      · refine Nat.le_trans ih ?_
        cases keys with
        | nil => exact Nat.zero_le _
        | cons next keys =>
            rw [String.intercalate_cons_cons, String.length_append]
            exact Nat.le_add_left _ _
      · exact Nat.le_refl _

/-- The only names that are not the whole path are those of paths with more than one key of which
the first is empty. -/
theorem nameOf_eq_dotted_iff :
    nameOf path = dotted path ↔ ¬ ∃ second rest, texts path = "" :: second :: rest := by
  rw [nameOf, dotted]
  generalize texts path = keys
  cases keys with
  | nil => simp
  | cons first rest =>
      by_cases hfirst : first = ""
      · subst hfirst
        cases rest with
        | nil => simp
        | cons second rest =>
            have hshorter := length_dropWhile_le (second :: rest)
            have hlength : ("." : String).length = 1 := rfl
            have hne : ".".intercalate ((second :: rest).dropWhile String.isEmpty) ≠
                ".".intercalate ("" :: second :: rest) := by
              intro hsame
              rw [hsame, String.intercalate_cons_cons, String.length_append,
                String.length_append] at hshorter
              omega
            simpa using hne
      · simp [hfirst]

theorem exists_of_mem_leaves {leaf : List Value × Scalar} (h : leaf ∈ leaves entries) :
    ∃ entry ∈ entries, ∃ path, leaf.1 = entry.1 :: path := by
  induction entries with
  | nil => exact absurd h List.not_mem_nil
  | cons entry rest ih =>
      rw [leaves, List.mem_append] at h
      rcases h with h | h
      · rw [entryLeaves.eq_def, List.mem_map] at h
        obtain ⟨below, -, rfl⟩ := h
        exact ⟨entry, List.mem_cons_self, below.1, rfl⟩
      · obtain ⟨other, hother, hpath⟩ := ih h
        exact ⟨other, List.mem_cons_of_mem _ hother, hpath⟩

/-- Without an empty key at the root every name is the whole path. -/
theorem stored_nameOf (hplain : Plain (.mapping entries))
    (hroot : ∀ entry ∈ entries, keyText? entry.1 ≠ some "") :
    stored nameOf (leaves entries) = stored dotted (leaves entries) := by
  refine List.filterMap_congr fun leaf hleaf => ?_
  have hname : nameOf leaf.1 = dotted leaf.1 := by
    rw [nameOf_eq_dotted_iff]
    rintro ⟨second, rest, htexts⟩
    obtain ⟨entry, hentry, path, hpath⟩ := exists_of_mem_leaves hleaf
    have hnamed := isSome_keyText?_iff.mpr (plain_mapping_iff.mp hplain entry hentry).1
    obtain ⟨text, htext⟩ := Option.isSome_iff_exists.mp hnamed
    rw [hpath, texts, List.filterMap_cons_some htext, List.cons.injEq] at htexts
    exact hroot entry hentry (by rw [htext, htexts.1])
  rw [hname]

/-- A tree is flattened if and only if it is plain, and an error is about the data. The parameters
are the leaves other than null in the order of the document, a later one in the stead of an earlier
one of that name. A name is the whole path except below an empty key at the root. -/
theorem flatten_by_path (root : List (Value × Value)) :
    (∀ params, flatten "" root .empty = .ok params ↔
        Plain (.mapping root) ∧ params = OrderedMap.ofList (stored nameOf (leaves root))) ∧
      (Plain (.mapping root) ∨
        ∃ message, flatten "" root .empty = .error ⟨Failure.dataInvalid, message⟩) ∧
      (∀ scalar, ofScalar scalar = none ↔ scalar = .null) ∧
      (∀ name, (OrderedMap.ofList (stored nameOf (leaves root))).find? name =
        ((stored nameOf (leaves root)).reverse.find? fun entry => entry.1 = name).map (·.2)) ∧
      (∀ path, nameOf path = dotted path ↔ ¬ ∃ second rest, texts path = "" :: second :: rest) ∧
      ((∀ entry ∈ root, keyText? entry.1 ≠ some "") →
        ∀ params, flatten "" root .empty = .ok params ↔
          Plain (.mapping root) ∧ params = OrderedMap.ofList (stored dotted (leaves root))) := by
  have hsettles := flatten_settles "" root .empty
  rw [store, funext nameBelow_empty, ← OrderedMap.ofList] at hsettles
  have hflatten : ∀ params, flatten "" root .empty = .ok params ↔
      Plain (.mapping root) ∧ params = OrderedMap.ofList (stored nameOf (leaves root)) := by
    intro params
    generalize flatten "" root .empty = outcome at hsettles
    cases hsettles with
    | stored hplain => simp [hplain, eq_comm]
    | refused message hplain => simp [hplain]
  have hrefused : Plain (.mapping root) ∨
      ∃ message, flatten "" root .empty = .error ⟨Failure.dataInvalid, message⟩ := by
    generalize flatten "" root .empty = outcome at hsettles
    cases hsettles with
    | stored hplain => exact .inl hplain
    | refused message _ => exact .inr ⟨message, rfl⟩
  have hfind : ∀ name, (OrderedMap.ofList (stored nameOf (leaves root))).find? name =
      ((stored nameOf (leaves root)).reverse.find? fun entry => entry.1 = name).map (·.2) := by
    intro name
    rw [OrderedMap.ofList, OrderedMap.find?_insertAll]
    exact Option.or_none
  refine ⟨hflatten, hrefused, fun _ => ofScalar_eq_none_iff, hfind, fun _ => nameOf_eq_dotted_iff,
    fun hroot params => ?_⟩
  rw [hflatten]
  refine and_congr_right fun hplain => ?_
  rw [stored_nameOf hplain hroot]

/-- A leaf below an empty key. -/
def belowEmptyKey : List (Value × Value) :=
  [(.scalar (.string ""), .mapping [(.scalar (.string "a"), .scalar (.int 1))])]

theorem not_every_leaf_under_path :
    ¬ ∀ (root : List (Value × Value)) (params : Parameters),
        flatten "" root .empty = .ok params ↔
          Plain (.mapping root) ∧ params = OrderedMap.ofList (stored dotted (leaves root)) := by
  intro hclaim
  have hread : flatten "" belowEmptyKey .empty = .ok (OrderedMap.ofList [("a", .int 1)]) := rfl
  have hkeys := congrArg OrderedMap.keys ((hclaim belowEmptyKey _).mp hread).2
  have hname : (OrderedMap.ofList (stored dotted (leaves belowEmptyKey))).keys = [".a"] := by decide
  have hother : (OrderedMap.ofList [("a", ParamValue.int 1)]).keys = ["a"] := by decide
  rw [hname, hother] at hkeys
  exact absurd hkeys (by decide)

end TopicBridge.Parameters
