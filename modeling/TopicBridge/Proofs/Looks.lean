import TopicBridge.Proofs.Delimited
import TopicBridge.Proofs.Seeking

/-! All that a look can come to, whatever the queue holds. A marked look ends at some marker, a
delimited one behind some zeros; in either protocol it blames no link, and when it waits the queue
has room for more. -/
namespace TopicBridge
namespace Frame

/-- A look that passes over `skipped` octets to a marker and reports what is read there. -/
inductive LooksAt (maxPayload : Nat) (s : Bytes) : Look → Prop
  | nowhere : ¬ marker <:+: s → LooksAt maxPayload s (.waiting (s.length - min s.length 2))
  | found {skipped : Nat} {frame : Frame} : marker <+: s.drop skipped →
      marked maxPayload (s.drop skipped) = .ok (some frame) →
      LooksAt maxPayload s (.found frame (skipped + frame.markedLength))
  | waiting {skipped : Nat} : marker <+: s.drop skipped →
      marked maxPayload (s.drop skipped) = .ok none → LooksAt maxPayload s (.waiting skipped)
  | failed {skipped : Nat} {cause : FrameError} : marker <+: s.drop skipped →
      markerRun (s.drop skipped) ≤ 3 → marked maxPayload (s.drop skipped) = .error cause →
      LooksAt maxPayload s (.failed cause (skipped + 1))

/-- A look at the rest, from a place where a marker stands, is a look at the whole. -/
theorem LooksAt.after {maxPayload skipped : Nat} {s : Bytes} {look : Look}
    (hs : marker <+: s.drop skipped) (h : LooksAt maxPayload (s.drop skipped) look) :
    LooksAt maxPayload s (look.after skipped) := by
  cases h with
  | nowhere hnone => exact absurd hs.isInfix hnone
  | found hmarker hfound =>
      rw [List.drop_drop] at hmarker hfound
      rw [Look.after, Look.found, ← Nat.add_assoc]
      exact .found hmarker hfound
  | waiting hmarker hwaiting =>
      rw [List.drop_drop] at hmarker hwaiting
      exact .waiting hmarker hwaiting
  | failed hmarker hrun hfailed =>
      rw [List.drop_drop] at hmarker hrun hfailed
      rw [Look.after, Look.failed, ← Nat.add_assoc]
      exact .failed hmarker hrun hfailed

theorem looksAt_of_seeks {maxPayload : Nat} {s : Bytes} {look : Look}
    (h : Seeks maxPayload s look) : LooksAt maxPayload s look := by
  induction h with
  | nowhere hnone => exact .nowhere hnone
  | before hoffset _ ih =>
      exact ih.after ((Bytes.offsetOf?_eq_some_iff marker_ne_nil).mp hoffset).1
  | @first s frame hs hfirst =>
      rw [← Nat.zero_add frame.markedLength]
      exact .found hs hfirst
  | last hs hlong _ hlast =>
      exact .found (marker_prefix_drop_markerRun (Nat.le_of_lt hlong)) hlast
  | @waiting s hs hfirst _ =>
      rw [← List.drop_zero (l := s)] at hs hfirst
      exact .waiting hs hfirst
  | @failed s cause hs hrun hfailed =>
      rw [← List.drop_zero (l := s)] at hs hrun hfailed
      exact .failed hs hrun hfailed
  | passed hs hlong _ _ ih => exact ih.after (marker_prefix_drop_markerRun (Nat.le_of_lt hlong))

theorem looksAt_lookMarked (maxPayload : Nat) (s : Bytes) :
    LooksAt maxPayload s (lookMarked maxPayload s) :=
  looksAt_of_seeks (seeks_lookMarked maxPayload s)

/-- An error that no octets are the cause of. -/
def foreign : FrameError → Bool
  | .link _ => true
  | .config _ => true
  | _ => false

theorem checked_ne_foreign {topic seq : UInt8} {expected : UInt16} {payload : Bytes}
    {cause : FrameError} (h : foreign cause = true) :
    checked topic seq expected payload ≠ .error cause := by
  unfold checked
  dsimp only
  split
  · exact nofun
  · rintro ⟨⟩
    cases h

theorem map_some_ne_error {result : Except FrameError Frame} {cause : FrameError}
    (h : result ≠ .error cause) : result.map some ≠ .error cause := by
  cases result with
  | ok frame => exact nofun
  | error other => simpa [Except.map] using h

theorem map_some_ne_none {result : Except FrameError Frame} : result.map some ≠ .ok none := by
  cases result <;> exact nofun

theorem marked_ne_foreign {maxPayload : Nat} {s : Bytes} {cause : FrameError}
    (h : foreign cause = true) : marked maxPayload s ≠ .error cause := by
  unfold marked
  split
  · dsimp only
    split
    · rintro ⟨⟩
      cases h
    · split
      · exact nofun
      · exact map_some_ne_error (checked_ne_foreign h)
  · exact nofun

/-- What is waited for at a marker has not got as long as the longest frame. -/
theorem length_lt_of_marked_none {maxPayload : Nat} {s : Bytes}
    (h : marked maxPayload s = .ok none) : s.length < 9 + maxPayload := by
  unfold marked at h
  split at h
  · dsimp only at h
    split at h
    · cases h
    · split at h
      · simp only [List.length_cons]
        omega
      · exact absurd h map_some_ne_none
  · next hheader =>
      rcases s with
        _ | ⟨_, _ | ⟨_, _ | ⟨_, _ | ⟨_, _ | ⟨_, _ | ⟨_, _ | ⟨_, _ | ⟨_, _ | ⟨_, rest⟩⟩⟩⟩⟩⟩⟩⟩⟩
      case cons.cons.cons.cons.cons.cons.cons.cons.cons =>
        exact (hheader _ _ _ _ _ _ _ _ _ _ rfl).elim
      all_goals
        simp only [List.length_cons, List.length_nil]
        omega

/-- What a marked look waits for leaves room in a queue that holds the longest frame. -/
theorem length_drop_lookMarked {maxPayload : Nat} {s : Bytes}
    (h : (lookMarked maxPayload s).result = .ok none) :
    (s.drop (lookMarked maxPayload s).consumed).length < 9 + maxPayload := by
  have hlook := looksAt_lookMarked maxPayload s
  generalize lookMarked maxPayload s = look at h hlook
  cases hlook with
  | nowhere hnone =>
      simp only [Look.waiting, List.length_drop]
      omega
  | found hmarker hfound => cases h
  | waiting hmarker hwaiting => exact length_lt_of_marked_none hwaiting
  | failed hmarker hrun hfailed => cases h

theorem lookMarked_ne_foreign {maxPayload : Nat} {s : Bytes} {cause : FrameError}
    (h : foreign cause = true) : (lookMarked maxPayload s).result ≠ .error cause := by
  have hlook := looksAt_lookMarked maxPayload s
  generalize lookMarked maxPayload s = look at hlook
  cases hlook with
  | nowhere hnone => exact nofun
  | found hmarker hfound => exact nofun
  | waiting hmarker hwaiting => exact nofun
  | failed hmarker hrun hfailed =>
      rintro ⟨⟩
      exact marked_ne_foreign h hfailed

/-- A look that passes over empty records and reports on what stands behind them: nothing, a
record that has ended, one that fills the queue, or one that goes on. -/
inductive LooksPast (capacity maxPayload : Nat) : Bytes → Look → Prop
  | nothing : LooksPast capacity maxPayload [] (.waiting 0)
  | emptied {rest : Bytes} {look : Look} : LooksPast capacity maxPayload rest look →
      LooksPast capacity maxPayload (0 :: rest) (look.after 1)
  | ended {stuffed : Bytes} : stuffed ≠ [] → 0 ∉ stuffed → ∀ rest : Bytes,
      LooksPast capacity maxPayload (stuffed ++ 0 :: rest)
        ⟨(ofStuffed maxPayload stuffed).map some, stuffed.length + 1⟩
  | full {s : Bytes} : s ≠ [] → 0 ∉ s → s.length = capacity →
      LooksPast capacity maxPayload s (.failed (.payloadTooLarge capacity maxPayload) capacity)
  | going {s : Bytes} : 0 ∉ s → s.length ≠ capacity →
      LooksPast capacity maxPayload s (.waiting 0)

section
variable {capacity maxPayload : Nat}

theorem looksPast_of_zero_not_mem {s : Bytes} (hne : s ≠ []) (hclean : 0 ∉ s) :
    LooksPast capacity maxPayload s (lookDelimited capacity maxPayload s) := by
  by_cases hfull : s.length = capacity
  · rw [lookDelimited_full hne hclean hfull]
    exact .full hne hclean hfull
  · rw [lookDelimited_open hclean hfull]
    exact .going hclean hfull

theorem looksPast_lookDelimited (capacity maxPayload : Nat) (s : Bytes) :
    LooksPast capacity maxPayload s (lookDelimited capacity maxPayload s) := by
  induction s with
  | nil =>
      rw [lookDelimited_nil]
      exact .nothing
  | cons b rest ih =>
      by_cases hzero : 0 ∈ b :: rest
      · obtain ⟨stuffed, following, hsplit, hclean⟩ := List.eq_append_cons_of_mem hzero
        cases stuffed with
        | nil =>
            obtain ⟨rfl, rfl⟩ := List.cons.inj hsplit
            rw [lookDelimited_zero]
            exact .emptied ih
        | cons c stuffed =>
            rw [hsplit, lookDelimited_record (List.cons_ne_nil _ _) hclean]
            exact .ended (List.cons_ne_nil _ _) hclean following
      · exact looksPast_of_zero_not_mem (List.cons_ne_nil _ _) hzero

theorem ofRecord_ne_foreign {data : Bytes} {cause : FrameError} (h : foreign cause = true) :
    ofRecord maxPayload data ≠ .error cause := by
  unfold ofRecord
  split
  · dsimp only
    split
    · rintro ⟨⟩
      cases h
    · split
      · rintro ⟨⟩
        cases h
      · exact checked_ne_foreign h
  · rintro ⟨⟩
    cases h

theorem ofStuffed_ne_foreign {stuffed : Bytes} {cause : FrameError} (h : foreign cause = true) :
    ofStuffed maxPayload stuffed ≠ .error cause := by
  unfold ofStuffed
  split
  · rintro ⟨⟩
    cases h
  · exact ofRecord_ne_foreign h

theorem lookDelimited_ne_foreign {s : Bytes} {cause : FrameError} (h : foreign cause = true) :
    (lookDelimited capacity maxPayload s).result ≠ .error cause := by
  have hlook := looksPast_lookDelimited capacity maxPayload s
  generalize lookDelimited capacity maxPayload s = look at hlook
  induction hlook with
  | nothing => exact nofun
  | emptied _ ih => exact ih
  | ended _ _ rest => exact map_some_ne_error (ofStuffed_ne_foreign h)
  | full _ _ _ =>
      rintro ⟨⟩
      cases h
  | going _ _ => exact nofun

/-- A full queue never waits: the record in it goes. -/
theorem length_drop_lookDelimited {s : Bytes} (hcapacity : 0 < capacity)
    (hs : s.length ≤ capacity) (h : (lookDelimited capacity maxPayload s).result = .ok none) :
    (s.drop (lookDelimited capacity maxPayload s).consumed).length < capacity := by
  have hlook := looksPast_lookDelimited capacity maxPayload s
  generalize lookDelimited capacity maxPayload s = look at h hlook
  induction hlook with
  | nothing => exact hcapacity
  | emptied _ ih =>
      rw [Look.after, Nat.add_comm]
      rw [List.length_cons] at hs
      exact ih (Nat.le_of_succ_le hs) h
  | ended _ _ rest => exact absurd h map_some_ne_none
  | full _ _ _ => cases h
  | going _ hroom => exact Nat.lt_of_le_of_ne hs hroom

end

/-- A look blames no link and no configuration: only what it looks at. -/
theorem look_ne_foreign {protocol : Protocol} {capacity maxPayload : Nat} {s : Bytes}
    {cause : FrameError} (h : foreign cause = true) :
    (look protocol capacity maxPayload s).result ≠ .error cause := by
  cases protocol with
  | px4 => exact lookMarked_ne_foreign h
  | cobs => exact lookDelimited_ne_foreign h

end Frame

def FrameConfig.look (config : FrameConfig) (s : Bytes) : Frame.Look :=
  Frame.look config.protocol config.ringCapacity config.effectiveMaxPayload s

/-- After a look that waits, the queue of a usable configuration has room for an octet. -/
theorem FrameConfig.length_drop_look {config : FrameConfig} (hvalid : config.validate = .ok ())
    {s : Bytes} (hs : s.length ≤ config.ringCapacity) (h : (config.look s).result = .ok none) :
    (s.drop (config.look s).consumed).length < config.ringCapacity := by
  have hlongest := maxWireLength_effectiveMaxPayload hvalid
  unfold look at h ⊢
  cases hprotocol : config.protocol with
  | px4 =>
      rw [hprotocol] at h hlongest
      exact Nat.lt_of_lt_of_le (Frame.length_drop_lookMarked h) hlongest
  | cobs =>
      rw [hprotocol] at h
      exact Frame.length_drop_lookDelimited (ringCapacity_pos hvalid) hs h

end TopicBridge
