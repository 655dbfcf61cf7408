import Mathlib.Data.List.TakeWhile
import TopicBridge.Text.Blank

/-! White space at the ends of a text. Trimming takes it away and nothing else, so what is left is
known by any way of setting white space off at both ends. -/
namespace TopicBridge.Text
variable {core s : List Char}

def Blank (s : List Char) : Prop := ∀ c ∈ s, isBlank c = true

instance : Decidable (Blank s) := List.decidableBAll (isBlank · = true) s

def Solid (s : List Char) : Prop := ∀ c ∈ s, isBlank c = false

/-- The core of a text, with white space around it. -/
def BetweenBlanks (core s : List Char) : Prop :=
  ∃ before after, Blank before ∧ Blank after ∧ s = before ++ core ++ after

theorem blank_takeWhile (s : List Char) : Blank (s.takeWhile isBlank) := by
  intro c hc
  exact List.mem_takeWhile_imp hc

theorem betweenBlanks_trim (s : List Char) : BetweenBlanks (trim s) s := by
  have hback := List.takeWhile_append_dropWhile
    (p := isBlank) (l := (s.dropWhile isBlank).reverse)
  refine ⟨s.takeWhile isBlank, ((s.dropWhile isBlank).reverse.takeWhile isBlank).reverse,
    blank_takeWhile s, ?_, ?_⟩
  · intro c hc
    exact blank_takeWhile _ c (List.mem_reverse.mp hc)
  · rw [trim, List.append_assoc, ← List.reverse_append, hback, List.reverse_reverse,
      List.takeWhile_append_dropWhile]

theorem trim_eq_nil_iff : trim s = [] ↔ Blank s := by
  constructor
  · intro h
    obtain ⟨before, after, hbefore, hafter, hs⟩ := betweenBlanks_trim s
    rw [h, List.append_nil] at hs
    rw [hs]
    exact List.forall_mem_append.mpr ⟨hbefore, hafter⟩
  · intro h
    simp [trim, List.dropWhile_eq_nil_iff.mpr h]

theorem Solid.dropWhile (h : Solid s) : s.dropWhile isBlank = s := by
  cases s with
  | nil => rfl
  | cons c rest => simp [h c List.mem_cons_self]

theorem Solid.reverse (h : Solid s) : Solid s.reverse := by
  intro c hc
  exact h c (List.mem_reverse.mp hc)

/-- White space behind a core without any is all that is taken away from its end. -/
theorem Solid.trim_append {after : List Char} (h : Solid s) (hafter : Blank after) :
    trim (s ++ after) = s := by
  cases s with
  | nil => exact trim_eq_nil_iff.mpr hafter
  | cons c rest =>
      have hc : isBlank c = false := h c List.mem_cons_self
      have hback : ∀ d ∈ after.reverse, isBlank d = true := fun d hd =>
        hafter d (List.mem_reverse.mp hd)
      rw [trim, List.cons_append, List.dropWhile_cons_of_neg (by simp [hc]), ← List.cons_append,
        List.reverse_append, List.dropWhile_append_of_pos hback, h.reverse.dropWhile,
        List.reverse_reverse]

theorem trim_of_betweenBlanks (h : BetweenBlanks core s) (hsolid : Solid core) : trim s = core := by
  obtain ⟨before, after, hbefore, hafter, rfl⟩ := h
  have hfront : trim (before ++ (core ++ after)) = trim (core ++ after) := by
    rw [trim, trim, List.dropWhile_append_of_pos hbefore]
  rw [List.append_assoc, hfront, hsolid.trim_append hafter]

end TopicBridge.Text
