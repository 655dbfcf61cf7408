import TopicBridge.Proofs.Seeking
import TopicBridge.Proofs.Truncation

/-! What a look for a marked frame uses up besides the frame it delivers. No frame begins there, not
even one of which the rest is still to come; only a frame on the marker octet's own topic may be
passed over, since its topic cannot be told from the marker. The search behind the look is also
given one turn at a time, with turns that run out and a run that may be too short. -/
namespace TopicBridge.Frame

/-- No frame begins in the first `n` octets of `s`, whatever arrives behind them, unless on the
marker octet's topic. -/
def Barren (maxPayload : Nat) (s : Bytes) (n : Nat) : Prop :=
  ∀ i < n, ∀ (ahead : Bytes) (frame : Frame), frame.topic ≠ 0x3E →
    ¬ Opens maxPayload frame ((s ++ ahead).drop i)

def delivered : Except FrameError (Option Frame) → Bytes
  | .ok (some frame) => frame.wire .px4
  | _ => []

theorem markerRun_drop {s : Bytes} {n : Nat} (h : n ≤ markerRun s) :
    markerRun (s.drop n) = markerRun s - n := by
  fun_induction markerRun s generalizing n with
  | case1 rest ih =>
      cases n with
      | zero => rfl
      | succ n => rw [List.drop_succ_cons, ih (Nat.le_of_succ_le_succ h), Nat.add_sub_add_right]
  | case2 s hhead =>
      obtain rfl := Nat.le_zero.mp h
      rw [List.drop_zero, markerRun]
      exact hhead

theorem three_le_markerRun {s : Bytes} (hs : marker <+: s) : 3 ≤ markerRun s := by
  obtain ⟨tail, rfl⟩ := hs
  rw [markerRun_append eq_of_mem_marker]
  exact Nat.le_add_right _ _

section
variable {maxPayload : Nat} {s : Bytes}

theorem Opens.marker_prefix {frame : Frame} (h : Opens maxPayload frame s) : marker <+: s := by
  obtain ⟨-, octets, hencode, tail, rfl⟩ := h
  obtain ⟨-, rfl⟩ := encode_eq_ok_iff.mp hencode
  exact marker_prefix_wire frame tail

theorem barren_zero : Barren maxPayload s 0 := by
  intro i hi
  exact absurd hi (Nat.not_lt_zero i)

theorem Barren.add {m n : Nat} (hm : Barren maxPayload s m) (hn : Barren maxPayload (s.drop m) n)
    (hle : m ≤ s.length) : Barren maxPayload s (m + n) := by
  intro i hi ahead frame htopic hopens
  rcases Nat.lt_or_ge i m with hfront | hback
  · exact hm i hfront ahead frame htopic hopens
  · obtain ⟨j, rfl⟩ := Nat.exists_eq_add_of_le hback
    rw [← List.drop_drop, List.drop_append_of_le_length hle] at hopens
    exact hn j (by omega) ahead frame htopic hopens

/-- What is not the place of a marker and is far enough from the end will not become one. -/
theorem barren_of_no_marker {n : Nat} (hroom : ∀ i < n, i + 3 ≤ s.length)
    (hnone : ∀ i < n, ¬ marker <+: s.drop i) : Barren maxPayload s n := by
  intro i hi ahead frame _ hopens
  have hmarker := hopens.marker_prefix
  have hlength := hroom i hi
  rw [List.drop_append_of_le_length (by omega)] at hmarker
  apply hnone i hi
  refine List.prefix_of_prefix_length_le hmarker (List.prefix_append _ _) ?_
  rw [length_marker, List.length_drop]
  omega

/-- In a run of marker octets all but the last three would have a marker octet for their topic. -/
theorem barren_run {n : Nat} (hrun : n + 3 ≤ markerRun s) : Barren maxPayload s n := by
  rintro i hi ahead frame htopic ⟨-, octets, hencode, tail, htail⟩
  obtain ⟨-, rfl⟩ := encode_eq_ok_iff.mp hencode
  have hlength := markerRun_le s
  have hhead : markerRun (s.drop i) ≤ markerRun (s.drop i ++ ahead) :=
    markerRun_prefix (List.prefix_append _ _)
  rw [List.drop_append_of_le_length (by omega)] at htail
  rw [← htail, markerRun_wire htopic, markerRun_drop (by omega)] at hhead
  omega

/-- Whatever follows, an error stays the error it is. -/
theorem marked_append_of_error {cause : FrameError} (h : marked maxPayload s = .error cause)
    (ahead : Bytes) : marked maxPayload (s ++ ahead) = .error cause := by
  unfold marked at h
  split at h
  · next topic seq lengthHigh lengthLow checkHigh checkLow rest =>
      simp only [List.cons_append, marked]
      dsimp only at h
      split at h
      · next hlimit =>
          rw [if_pos hlimit]
          exact h
      next hlimit =>
      split at h
      · cases h
      next hwhole =>
      have hlong : ¬ (rest ++ ahead).length < (Bytes.toUInt16 lengthHigh lengthLow).toNat := by
        rw [List.length_append]
        omega
      rw [if_neg hlimit, if_neg hlong, List.take_append_of_le_length (Nat.le_of_not_lt hwhole)]
      exact h
  · cases h

theorem barren_of_error {cause : FrameError}
    (h : marked maxPayload s = .error cause) : Barren maxPayload s 1 := by
  intro i hi ahead frame _ hopens
  obtain rfl := Nat.lt_one_iff.mp hi
  have hfound := (marked_eq_some_iff hopens.marker_prefix).mpr hopens
  rw [List.drop_zero, marked_append_of_error h ahead] at hfound
  cases hfound

/-- A look uses up `discarded` barren octets and, behind them, those of the frame it delivers. -/
structure Discards (maxPayload : Nat) (s : Bytes) (look : Look) (discarded : Nat) : Prop where
  consumed : look.consumed = discarded + (delivered look.result).length
  stands : delivered look.result <+: s.drop discarded
  barren : Barren maxPayload s discarded

theorem Discards.after {look : Look} {m discarded : Nat} (hm : Barren maxPayload s m)
    (hle : m ≤ s.length) (h : Discards maxPayload (s.drop m) look discarded) :
    Discards maxPayload s (look.after m) (m + discarded) := by
  refine ⟨?_, ?_, hm.add h.barren hle⟩
  · show m + look.consumed = _
    rw [h.consumed, Nat.add_assoc]
    rfl
  · rw [← List.drop_drop]
    exact h.stands

theorem discards_found {frame : Frame} {discarded : Nat} (hbarren : Barren maxPayload s discarded)
    (hmarker : marker <+: s.drop discarded)
    (hfound : marked maxPayload (s.drop discarded) = .ok (some frame)) :
    Discards maxPayload s (.found frame (discarded + frame.markedLength)) discarded := by
  obtain ⟨-, octets, hencode, hstands⟩ := opens_of_marked hmarker hfound
  obtain ⟨-, rfl⟩ := encode_eq_ok_iff.mp hencode
  exact ⟨by rw [markedLength_eq]; rfl, hstands, hbarren⟩

theorem position_le_length {position : Nat} (h : Bytes.offsetOf? marker s = some position) :
    position + 3 ≤ s.length := by
  have hmarker := ((Bytes.offsetOf?_eq_some_iff marker_ne_nil).mp h).1.length_le
  rw [length_marker, List.length_drop] at hmarker
  omega

theorem discards_of_seeks {look : Look} (h : Seeks maxPayload s look) :
    ∃ discarded, Discards maxPayload s look discarded := by
  induction h with
  | @nowhere s hnone =>
      have hbarren : Barren maxPayload s (s.length - min s.length 2) := by
        refine barren_of_no_marker (fun i hi => by omega) ?_
        intro i _ hmarker
        exact hnone (hmarker.isInfix.trans (List.drop_suffix i s).isInfix)
      exact ⟨_, rfl, List.nil_prefix, hbarren⟩
  | @before s position look hoffset _ ih =>
      obtain ⟨discarded, hdiscards⟩ := ih
      have hlength := position_le_length hoffset
      have hbarren : Barren maxPayload s position := by
        refine barren_of_no_marker (fun i hi => by omega) ?_
        exact ((Bytes.offsetOf?_eq_some_iff marker_ne_nil).mp hoffset).2
      exact ⟨_, hdiscards.after hbarren (by omega)⟩
  | @first s frame hs hfirst =>
      rw [← Nat.zero_add frame.markedLength]
      exact ⟨0, discards_found barren_zero hs hfirst⟩
  | last hs hlong _ hlast =>
      have hmarker := marker_prefix_drop_markerRun (Nat.le_of_lt hlong)
      exact ⟨_, discards_found (barren_run (by omega)) hmarker hlast⟩
  | waiting => exact ⟨0, rfl, List.nil_prefix, barren_zero⟩
  | failed _ _ hfailed => exact ⟨1, rfl, List.nil_prefix, barren_of_error hfailed⟩
  | @passed s cause look hs hlong _ _ ih =>
      obtain ⟨discarded, hdiscards⟩ := ih
      have hlength := markerRun_le s
      exact ⟨_, hdiscards.after (barren_run (by omega)) (by omega)⟩

theorem Discards.eq_append {look : Look} {discarded : Nat}
    (h : Discards maxPayload s look discarded) :
    s = s.take discarded ++ delivered look.result ++ s.drop look.consumed := by
  obtain ⟨rest, hrest⟩ := h.stands
  have hdrop : s.drop look.consumed = rest := by
    rw [h.consumed, ← List.drop_drop, ← hrest, List.drop_left]
  rw [hdrop, List.append_assoc, hrest, List.take_append_drop]

end

/-- What a turn comes to: the search is over, or some octets are used up and it goes on behind them,
or the run at the marker is shorter than a marker. -/
inductive Turn where
  | ended (look : Look)
  | passed (skipped : Nat)
  | short

def Turn.after (position : Nat) : Turn → Turn
  | .ended look => .ended (look.after position)
  | .passed skipped => .passed (position + skipped)
  | .short => .short

def turnAt (maxPayload : Nat) (s : Bytes) : Turn :=
  if markerRun s < marker.length then .short
  else
    let last := markerRun s - marker.length
    match marked maxPayload s with
    | .ok (some frame) => .ended (.found frame frame.markedLength)
    | .ok none =>
        if last = 0 then .ended (.waiting 0)
        else
          match marked maxPayload (s.drop last) with
          | .ok (some frame) => .ended (.found frame (last + frame.markedLength))
          | _ => .ended (.waiting 0)
    | .error cause => if last = 0 then .ended (.failed cause 1) else .passed last

def turn (maxPayload : Nat) (s : Bytes) : Turn :=
  match Bytes.offsetOf? marker s with
  | none => .ended (.waiting (s.length - min s.length (marker.length - 1)))
  | some position => (turnAt maxPayload (s.drop position)).after position

/-- The outcome of a search that is over within so many turns. -/
def seekWithin (maxPayload : Nat) : Nat → Bytes → Option Look
  | 0, _ => none
  | turns + 1, s =>
      match turn maxPayload s with
      | .ended look => some look
      | .passed skipped => (seekWithin maxPayload turns (s.drop skipped)).map (Look.after skipped)
      | .short => none

section
variable {maxPayload : Nat} {s : Bytes}

/-- At a marker a turn ends the search as the look does, or passes on to the last of a run. -/
theorem turnAt_marker (maxPayload : Nat) (hs : marker <+: s) :
    turnAt maxPayload s = .ended (lookMarked maxPayload s) ∨
      3 < markerRun s ∧ turnAt maxPayload s = .passed (markerRun s - 3) ∧
        lookMarked maxPayload s =
          (lookMarked maxPayload (s.drop (markerRun s - 3))).after (markerRun s - 3) := by
  have hrun : ¬ markerRun s < marker.length := Nat.not_lt_of_le (three_le_markerRun hs)
  rw [turnAt, if_neg hrun]
  simp only [length_marker]
  cases hfirst : marked maxPayload s with
  | error cause =>
      by_cases hzero : markerRun s - 3 = 0
      · left
        rw [lookMarked_of_fault_alone hs (by omega) hfirst]
        exact if_pos hzero
      · right
        have hlong : 3 < markerRun s := by omega
        exact ⟨hlong, if_neg hzero, lookMarked_of_fault_first hs hlong hfirst⟩
  | ok found =>
      left
      cases found with
      | some frame => rw [lookMarked_of_found hs hfirst]
      | none =>
          by_cases hzero : markerRun s - 3 = 0
          · rw [lookMarked_of_waiting hs hfirst fun _ hlong => absurd hlong (by omega)]
            exact if_pos hzero
          · refine (if_neg hzero).trans ?_
            split
            · next frame hlast => rw [lookMarked_of_found_last hs (by omega) hfirst hlast]
            · next hlast => rw [lookMarked_of_waiting hs hfirst fun frame _ => hlast frame]

theorem Look.after_after (m n : Nat) (look : Look) :
    (look.after n).after m = look.after (m + n) := by
  simp only [Look.after, Nat.add_assoc]

/-- A turn that passes on to the last marker of a run is followed by one that ends the search. -/
theorem seekWithin_two (maxPayload : Nat) (s : Bytes) :
    seekWithin maxPayload 2 s = some (lookMarked maxPayload s) := by
  cases hoffset : Bytes.offsetOf? marker s with
  | none => simp only [seekWithin, turn, hoffset, lookMarked]
  | some position =>
      have hs := ((Bytes.offsetOf?_eq_some_iff marker_ne_nil).mp hoffset).1
      rw [lookMarked_of_offset hoffset, seekWithin, turn, hoffset]
      dsimp only
      rcases turnAt_marker maxPayload hs with hended | ⟨hlong, hpassed, hlook⟩
      · rw [hended]
        rfl
      · have hlast := marker_prefix_drop_markerRun (Nat.le_of_lt hlong)
        have hrun := markerRun_drop (Nat.sub_le (markerRun (s.drop position)) 3)
        have hsecond :
            turnAt maxPayload ((s.drop position).drop (markerRun (s.drop position) - 3)) =
              .ended (lookMarked maxPayload
                ((s.drop position).drop (markerRun (s.drop position) - 3))) := by
          rcases turnAt_marker maxPayload hlast with hended | ⟨hlonger, -, -⟩
          · exact hended
          · omega
        rw [hpassed, hlook, Look.after_after]
        simp only [Turn.after, ← List.drop_drop, seekWithin, turn, offsetOf?_marker hlast,
          List.drop_zero, hsecond, Option.map_some, Look.after_zero]

end

/-- Whatever the queue holds and whatever is still to come, a look for a marked frame uses up no
octet at which a frame begins, but for the frame that it delivers and for frames on the marker
octet's topic. Its search is over within two turns, and at no marker is the run shorter than the
marker. -/
theorem decode_discards_no_frame (maxPayload : Nat) (ring : Ring) :
    (∃ discarded,
      ring.toList = discarded ++ delivered (decode .px4 maxPayload ring).1 ++
        (decode .px4 maxPayload ring).2.toList ∧
      Barren maxPayload ring.toList discarded.length) ∧
    ∃ look, seekWithin maxPayload 2 ring.toList = some look ∧
      decode .px4 maxPayload ring = (look.result, ring.skip look.consumed) := by
  obtain ⟨discarded, hdiscards⟩ := discards_of_seeks (seeks_lookMarked maxPayload ring.toList)
  constructor
  · refine ⟨ring.toList.take discarded, ?_, ?_⟩
    · rw [decode_fst, toList_decode]
      exact hdiscards.eq_append
    · intro i hi
      exact hdiscards.barren i (Nat.lt_of_lt_of_le hi (List.length_take_le _ _))
  · exact ⟨_, seekWithin_two maxPayload ring.toList, rfl⟩

end TopicBridge.Frame
