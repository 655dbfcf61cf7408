/-! Finite maps as lists of entries in strictly ascending key order. There is one list for
each map, so equal maps are equal values. -/
namespace TopicBridge

structure OrderedMap (κ ν : Type) [LT κ] where
  entries : List (κ × ν)
  ascending : entries.Pairwise fun a b => a.1 < b.1

namespace OrderedMap

variable {κ ν : Type} [LT κ]

def empty : OrderedMap κ ν := ⟨[], .nil⟩

def find? [DecidableEq κ] (map : OrderedMap κ ν) (key : κ) : Option ν :=
  (map.entries.find? fun entry => entry.1 = key).map (·.2)

def contains [DecidableEq κ] (map : OrderedMap κ ν) (key : κ) : Bool := (map.find? key).isSome

def keys (map : OrderedMap κ ν) : List κ := map.entries.map (·.1)
def values (map : OrderedMap κ ν) : List ν := map.entries.map (·.2)
def size (map : OrderedMap κ ν) : Nat := map.entries.length

variable [DecidableLT κ] [DecidableEq κ]

/-- Puts an entry in its place, in the stead of one with the same key. -/
def place (key : κ) (value : ν) :
    List (κ × ν) → List (κ × ν)
  | [] => [(key, value)]
  | entry :: rest =>
      if key < entry.1 then (key, value) :: entry :: rest
      else if key = entry.1 then (key, value) :: rest
      else entry :: place key value rest

theorem mem_place {key : κ} {value : ν} {entries : List (κ × ν)} {entry : κ × ν}
    (h : entry ∈ place key value entries) : entry = (key, value) ∨ entry ∈ entries := by
  induction entries with
  | nil => exact .inl (by simpa [place] using h)
  | cons first rest ih =>
      simp only [place] at h
      split at h
      · simpa using h
      · split at h
        · rcases List.mem_cons.mp h with h | h
          · exact .inl h
          · exact .inr (List.mem_cons_of_mem _ h)
        · rcases List.mem_cons.mp h with h | h
          · exact .inr (h ▸ List.mem_cons_self)
          · exact (ih h).imp id (List.mem_cons_of_mem _)

variable [LE κ] [Std.IsLinearOrder κ] [Std.LawfulOrderLT κ]

theorem place_ascending (key : κ) (value : ν) {entries : List (κ × ν)}
    (h : entries.Pairwise fun a b => a.1 < b.1) :
    (place key value entries).Pairwise fun a b => a.1 < b.1 := by
  induction entries with
  | nil => simp [place]
  | cons first rest ih =>
      obtain ⟨hfirst, hrest⟩ := List.pairwise_cons.mp h
      simp only [place]
      split
      · rename_i hlt
        refine List.pairwise_cons.mpr ⟨fun entry hentry => ?_, h⟩
        rcases List.mem_cons.mp hentry with hentry | hentry
        · exact hentry ▸ hlt
        · exact Std.lt_trans hlt (hfirst entry hentry)
      · split
        · rename_i heq
          exact List.pairwise_cons.mpr ⟨fun entry hentry => heq ▸ hfirst entry hentry, hrest⟩
        · rename_i hlt heq
          refine List.pairwise_cons.mpr ⟨fun entry hentry => ?_, ih hrest⟩
          rcases mem_place hentry with hentry | hentry
          · subst hentry
            exact Std.lt_of_le_of_ne (Std.not_lt.mp hlt) (Ne.symm heq)
          · exact hfirst entry hentry

/-- Sets an entry; an earlier one with the same key goes. -/
def insert (map : OrderedMap κ ν) (key : κ) (value : ν) : OrderedMap κ ν :=
  ⟨place key value map.entries, place_ascending key value map.ascending⟩

def insertAll (map : OrderedMap κ ν) (entries : List (κ × ν)) : OrderedMap κ ν :=
  entries.foldl (fun map entry => map.insert entry.1 entry.2) map

def ofList (entries : List (κ × ν)) : OrderedMap κ ν := empty.insertAll entries

end OrderedMap
end TopicBridge
