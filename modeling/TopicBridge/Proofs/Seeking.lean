import TopicBridge.Proofs.Marked

/-! Every way in which a look for a marked frame comes to its outcome, with the guards under which
it does. What holds of a look, whatever the queue contains, is shown by induction on these rules. -/
namespace TopicBridge.Frame

/-- The last three octets of a longer run open no frame that is whole yet. -/
def LastWaits (maxPayload : Nat) (s : Bytes) : Prop :=
  ∀ frame, 3 < markerRun s → marked maxPayload (s.drop (markerRun s - 3)) ≠ .ok (some frame)

/-- Only `before` and `passed` use up octets and look on behind them. -/
inductive Seeks (maxPayload : Nat) : Bytes → Look → Prop
  | nowhere {s : Bytes} : ¬ marker <:+: s →
      Seeks maxPayload s (.waiting (s.length - min s.length 2))
  | before {s : Bytes} {position : Nat} {look : Look} : Bytes.offsetOf? marker s = some position →
      Seeks maxPayload (s.drop position) look → Seeks maxPayload s (look.after position)
  | first {s : Bytes} {frame : Frame} : marker <+: s → marked maxPayload s = .ok (some frame) →
      Seeks maxPayload s (.found frame frame.markedLength)
  | last {s : Bytes} {frame : Frame} : marker <+: s → 3 < markerRun s →
      marked maxPayload s = .ok none →
      marked maxPayload (s.drop (markerRun s - 3)) = .ok (some frame) →
      Seeks maxPayload s (.found frame (markerRun s - 3 + frame.markedLength))
  | waiting {s : Bytes} : marker <+: s → marked maxPayload s = .ok none → LastWaits maxPayload s →
      Seeks maxPayload s (.waiting 0)
  | failed {s : Bytes} {cause : FrameError} : marker <+: s → markerRun s ≤ 3 →
      marked maxPayload s = .error cause → Seeks maxPayload s (.failed cause 1)
  | passed {s : Bytes} {cause : FrameError} {look : Look} : marker <+: s → 3 < markerRun s →
      marked maxPayload s = .error cause → Seeks maxPayload (s.drop (markerRun s - 3)) look →
      Seeks maxPayload s (look.after (markerRun s - 3))

theorem seeks_marker {maxPayload : Nat} {s : Bytes} (hs : marker <+: s) :
    Seeks maxPayload s (lookMarked maxPayload s) := by
  induction hn : s.length using Nat.strongRecOn generalizing s with
  | ind n ih =>
      cases hfirst : marked maxPayload s with
      | error cause =>
          rcases Nat.lt_or_ge 3 (markerRun s) with hlong | hshort
          · have hlast := marker_prefix_drop_markerRun (Nat.le_of_lt hlong)
            have hrun := markerRun_le s
            have hlength : (s.drop (markerRun s - 3)).length < n := by
              rw [List.length_drop]
              omega
            rw [lookMarked_of_fault_first hs hlong hfirst]
            exact .passed hs hlong hfirst (ih _ hlength hlast rfl)
          · rw [lookMarked_of_fault_alone hs hshort hfirst]
            exact .failed hs hshort hfirst
      | ok found =>
          cases found with
          | some frame =>
              rw [lookMarked_of_found hs hfirst]
              exact .first hs hfirst
          | none =>
              by_cases hlast : LastWaits maxPayload s
              · rw [lookMarked_of_waiting hs hfirst hlast]
                exact .waiting hs hfirst hlast
              · simp only [LastWaits, not_forall, not_not] at hlast
                obtain ⟨frame, hlong, hframe⟩ := hlast
                rw [lookMarked_of_found_last hs hlong hfirst hframe]
                exact .last hs hlong hfirst hframe

theorem seeks_lookMarked (maxPayload : Nat) (s : Bytes) :
    Seeks maxPayload s (lookMarked maxPayload s) := by
  cases hoffset : Bytes.offsetOf? marker s with
  | none =>
      have hnone := (Bytes.offsetOf?_eq_none_iff marker_ne_nil).mp hoffset
      rw [lookMarked_of_no_marker hnone]
      exact .nowhere hnone
  | some position =>
      have hs := ((Bytes.offsetOf?_eq_some_iff marker_ne_nil).mp hoffset).1
      rw [lookMarked_of_offset hoffset]
      exact .before hoffset (seeks_marker hs)

end TopicBridge.Frame
