import TopicBridge.Topic.Table

/-! Names of topic settings. A parameter name speaks of a topic exactly if it is the name that the
topic and the setting have together, so different pairs have different names. -/
namespace TopicBridge

namespace Text
variable {separator : Char}

theorem split_ne_nil (s : List Char) : split separator s ≠ [] := by
  cases s with
  | nil => nofun
  | cons c rest =>
      rw [split]
      split
      · nofun
      · cases split separator rest <;> nofun

theorem split_of_not_mem {s : List Char} (h : separator ∉ s) : split separator s = [s] := by
  induction s with
  | nil => rfl
  | cons c rest ih =>
      rw [List.mem_cons, not_or] at h
      rw [split, if_neg (Ne.symm h.1), ih h.2, extend]

theorem split_append {part : List Char} (h : separator ∉ part) (s : List Char) :
    split separator (part ++ separator :: s) = part :: split separator s := by
  induction part with
  | nil => rw [List.nil_append, split, if_pos rfl]
  | cons c rest ih =>
      rw [List.mem_cons, not_or] at h
      rw [List.cons_append, split, if_neg (Ne.symm h.1), ih h.2, extend]

/-- The first part has no separator and is all, or a separator and the other parts follow. -/
theorem of_split_eq_cons {s part : List Char} {parts : List (List Char)}
    (h : split separator s = part :: parts) :
    separator ∉ part ∧ (parts = [] ∧ s = part ∨
      ∃ rest, s = part ++ separator :: rest ∧ split separator rest = parts) := by
  induction s generalizing part with
  | nil =>
      obtain ⟨rfl, rfl⟩ := List.cons.inj h
      exact ⟨List.not_mem_nil, .inl ⟨rfl, rfl⟩⟩
  | cons c rest ih =>
      rw [split] at h
      split at h
      · next heq =>
          obtain ⟨rfl, rfl⟩ := List.cons.inj h
          exact ⟨List.not_mem_nil, .inr ⟨rest, by rw [heq]; rfl, rfl⟩⟩
      · next hne =>
          cases hrest : split separator rest with
          | nil => exact absurd hrest (split_ne_nil rest)
          | cons first others =>
              rw [hrest, extend] at h
              obtain ⟨rfl, rfl⟩ := List.cons.inj h
              obtain ⟨hnot, hcases⟩ := ih hrest
              refine ⟨List.not_mem_cons_of_ne_of_not_mem (Ne.symm hne) hnot, ?_⟩
              rcases hcases with ⟨hparts, rfl⟩ | ⟨tail, rfl, htail⟩
              · exact .inl ⟨hparts, rfl⟩
              · exact .inr ⟨tail, rfl, htail⟩

theorem split_eq_three_iff {s first second third : List Char} :
    split separator s = [first, second, third] ↔
      s = first ++ separator :: (second ++ separator :: third) ∧
        separator ∉ first ∧ separator ∉ second ∧ separator ∉ third := by
  constructor
  · intro h
    obtain ⟨hfirst, ⟨hnone, -⟩ | ⟨rest, rfl, hrest⟩⟩ := of_split_eq_cons h
    · cases hnone
    obtain ⟨hsecond, ⟨hnone, -⟩ | ⟨last, rfl, hlast⟩⟩ := of_split_eq_cons hrest
    · cases hnone
    obtain ⟨hthird, ⟨-, rfl⟩ | ⟨more, -, hmore⟩⟩ := of_split_eq_cons hlast
    · exact ⟨rfl, hfirst, hsecond, hthird⟩
    · exact absurd hmore (split_ne_nil more)
  · rintro ⟨rfl, hfirst, hsecond, hthird⟩
    rw [split_append hfirst, split_append hsecond, split_of_not_mem hthird]

end Text

namespace Table

/-- The parameter name of a setting of a topic. -/
def keyOf (topic setting : String) : String := "topics." ++ topic ++ "." ++ setting

/-- A part of a parameter name. -/
structure Plain (part : String) : Prop where
  nonempty : part ≠ ""
  whole : '.' ∉ part.toList

variable {key topic setting : String}

theorem topicKey?_eq_some_iff :
    topicKey? key = some (topic, setting) ↔
      key = keyOf topic setting ∧ Plain topic ∧ Plain setting := by
  have hkey : key = keyOf topic setting ↔ key.toList =
      "topics".toList ++ '.' :: (topic.toList ++ '.' :: setting.toList) := by
    rw [← String.toList_inj, keyOf]
    simp
  rw [hkey, topicKey?]
  constructor
  · intro h
    split at h
    · next head name part hsplit =>
        split at h
        · next hparts =>
            obtain ⟨rfl, hname, hpart⟩ := hparts
            obtain ⟨rfl, rfl⟩ := Prod.mk.inj (Option.some.inj h)
            obtain ⟨hjoined, -, hnotname, hnotpart⟩ := Text.split_eq_three_iff.mp hsplit
            refine ⟨by simpa using hjoined, ⟨?_, ?_⟩, ?_, ?_⟩
            · simpa using hname
            · simpa using hnotname
            · simpa using hpart
            · simpa using hnotpart
        · cases h
    · cases h
  · rintro ⟨hjoined, htopic, hsetting⟩
    rw [Text.split_eq_three_iff.mpr
      ⟨hjoined, by decide, htopic.whole, hsetting.whole⟩]
    dsimp only
    rw [if_pos ⟨rfl, by simpa using htopic.nonempty, by simpa using hsetting.nonempty⟩]
    simp

/-- The settings that a topic needs, in the order in which they are missed. -/
def settings : List String := ["serial_mapping", "type", "direction"]

theorem plain_of_mem_settings (h : setting ∈ settings) : Plain setting := by
  simp only [settings, List.mem_cons, List.not_mem_nil, or_false] at h
  rcases h with rfl | rfl | rfl <;> exact ⟨by decide, by decide⟩

theorem keyOf_inj {other : String} : keyOf topic setting = keyOf topic other ↔ setting = other := by
  rw [← String.toList_inj, ← String.toList_inj, keyOf, keyOf]
  simp

theorem prefix_keyOf (topic setting : String) :
    "topics.".toList <+: (keyOf topic setting).toList := by
  rw [keyOf, String.append_assoc, String.append_assoc, String.toList_append]
  exact List.prefix_append ..

theorem suffix_keyOf (topic setting : String) :
    setting.toList <:+ (keyOf topic setting).toList := by
  rw [keyOf, String.toList_append]
  exact List.suffix_append ..

end Table
end TopicBridge
