import TopicBridge.Proofs.Session

/-! A delimited stream is split at its zeros, one octet at a time, and at nothing else: the looks of
a reader at its queue, at whatever moments they come, follow that splitting. Only a record that
fills the queue ends without a zero. -/
namespace TopicBridge

/-- The outcomes of a stream, octet by octet. `collected` are the octets since the last outcome or
zero. -/
def split (capacity maxPayload : Nat) (collected : Bytes) : Bytes → List Outcome
  | [] => []
  | b :: rest =>
      if b = 0 then
        if collected = [] then split capacity maxPayload [] rest
        else
          (match Cobs.unstuff collected with
          | none => .error .stuffing
          | some data => Frame.ofRecord maxPayload data) :: split capacity maxPayload [] rest
      else if collected.length + 1 = capacity then
        .error (.payloadTooLarge capacity maxPayload) :: split capacity maxPayload [] rest
      else split capacity maxPayload (collected ++ [b]) rest

section
variable {capacity maxPayload : Nat}

theorem split_zero (rest : Bytes) :
    split capacity maxPayload [] (0 :: rest) = split capacity maxPayload [] rest := by
  rw [split, if_pos rfl, if_pos rfl]

theorem split_append {collected s : Bytes} (hclean : 0 ∉ s)
    (hroom : collected.length + s.length < capacity) (t : Bytes) :
    split capacity maxPayload collected (s ++ t) =
      split capacity maxPayload (collected ++ s) t := by
  induction s generalizing collected with
  | nil => rw [List.nil_append, List.append_nil]
  | cons b rest ih =>
      have hb : b ≠ 0 := fun h => hclean (h ▸ List.mem_cons_self)
      have hrest : 0 ∉ rest := fun h => hclean (List.mem_cons_of_mem _ h)
      rw [List.length_cons] at hroom
      have hnext : (collected ++ [b]).length + rest.length < capacity := by
        rw [List.length_append, List.length_singleton]
        omega
      rw [List.cons_append, split, if_neg hb, if_neg (by omega), ih hrest hnext, List.append_assoc,
        List.singleton_append]

theorem split_record {stuffed : Bytes} (hne : stuffed ≠ []) (hclean : 0 ∉ stuffed)
    (hroom : stuffed.length < capacity) (t : Bytes) :
    split capacity maxPayload [] (stuffed ++ 0 :: t) =
      Frame.ofStuffed maxPayload stuffed :: split capacity maxPayload [] t := by
  rw [split_append hclean (by simpa using hroom), List.nil_append, split, if_pos rfl, if_neg hne]
  rfl

theorem split_full {s : Bytes} (hne : s ≠ []) (hclean : 0 ∉ s) (hfull : s.length = capacity)
    (t : Bytes) :
    split capacity maxPayload [] (s ++ t) =
      .error (.payloadTooLarge capacity maxPayload) :: split capacity maxPayload [] t := by
  rcases List.eq_nil_or_concat s with rfl | ⟨front, last, rfl⟩
  · exact absurd rfl hne
  · rw [List.concat_eq_append] at hclean hfull ⊢
    rw [List.length_append, List.length_singleton] at hfull
    have hfront : 0 ∉ front := fun h => hclean (List.mem_append_left _ h)
    have hlast : last ≠ 0 := fun h => hclean (List.mem_append_right _ (h ▸ List.mem_cons_self))
    have hroom : ([] : Bytes).length + front.length < capacity := by
      rw [List.length_nil]
      omega
    rw [List.append_assoc, split_append hfront hroom, List.nil_append, List.singleton_append, split,
      if_neg hlast, if_pos hfull]

theorem split_open {s : Bytes} (hclean : 0 ∉ s) (hroom : s.length < capacity) :
    split capacity maxPayload [] s = [] := by
  have hempty : ([] : Bytes).length + s.length < capacity := by
    rw [List.length_nil]
    omega
  have hsplit : split capacity maxPayload [] (s ++ []) = split capacity maxPayload ([] ++ s) [] :=
    split_append hclean hempty []
  rw [List.append_nil] at hsplit
  rw [hsplit]
  rfl

end

section
open TopicBridge.Frame
variable {capacity maxPayload : Nat} {s : Bytes} {look : Look}

/-- A look reports the first outcome of what it sees, or none if there is none yet. -/
theorem split_looksPast (h : LooksPast capacity maxPayload s look) (hs : s.length ≤ capacity)
    (t : Bytes) :
    split capacity maxPayload [] (s ++ t) =
      verdict look.result ++ split capacity maxPayload [] (s.drop look.consumed ++ t) := by
  induction h with
  | nothing => rfl
  | emptied _ ih =>
      rw [List.length_cons] at hs
      rw [List.cons_append, split_zero, ih (Nat.le_of_succ_le hs), Look.after, Nat.add_comm]
      rfl
  | @ended stuffed hne hclean rest =>
      have hlength : stuffed.length + (rest.length + 1) ≤ capacity := by
        rw [List.length_append, List.length_cons] at hs
        exact hs
      have hdrop : (stuffed ++ 0 :: rest).drop (stuffed.length + 1) = rest := by
        rw [List.drop_append, List.drop_eq_nil_of_le (Nat.le_succ _), Nat.add_sub_cancel_left]
        rfl
      rw [verdict_map_some fun _ => ofStuffed_ne_foreign rfl, hdrop, List.append_assoc,
        List.cons_append, split_record hne hclean (by omega)]
      rfl
  | full hne hclean hfull =>
      rw [split_full hne hclean hfull, Look.failed, ← hfull, List.drop_length]
      rfl
  | going hclean hroom => rfl

/-- What waits is a record that has not ended. -/
theorem split_waiting (h : LooksPast capacity maxPayload s look) (hs : s.length ≤ capacity)
    (hnone : look.result = .ok none) : split capacity maxPayload [] s = [] := by
  induction h with
  | nothing => rfl
  | emptied _ ih =>
      rw [List.length_cons] at hs
      rw [split_zero]
      exact ih (Nat.le_of_succ_le hs) hnone
  | ended _ _ rest => exact absurd hnone map_some_ne_none
  | full _ _ _ => cases hnone
  | going hclean hroom => exact split_open hclean (Nat.lt_of_le_of_ne hs hroom)

end

/-- The splitting as the meaning of a stream. -/
def Splits (config : FrameConfig) (s : Bytes) (outcomes : List Outcome) : Prop :=
  split config.ringCapacity config.effectiveMaxPayload [] s = outcomes

theorem FrameConfig.looksPast_look {config : FrameConfig} (hcobs : config.protocol = .cobs)
    (s : Bytes) :
    Frame.LooksPast config.ringCapacity config.effectiveMaxPayload s (config.look s) := by
  rw [look, hcobs]
  exact Frame.looksPast_lookDelimited _ _ s

theorem follows_splits {config : FrameConfig} (hcobs : config.protocol = .cobs) :
    Follows config (Splits config) := by
  constructor
  · rintro s t outcomes hs rfl
    exact ⟨_, split_looksPast (FrameConfig.looksPast_look hcobs s) hs t, rfl⟩
  · rintro s outcomes hs hnone rfl
    exact split_waiting (FrameConfig.looksPast_look hcobs s) hs hnone

/-- Whatever octets arrive, and in whatever chunks, the frames and decoding errors of a delimited
stream are those of its splitting: the first of them after any number of reads, all of them after
enough. All other results are the link's own failures or none. -/
theorem Session.reads_split {config : FrameConfig} (hvalid : config.validate = .ok ())
    (hcobs : config.protocol = .cobs) :
    ∃ reader, Reader.create config = .ok reader ∧
      ∀ link : Link, link.Whole (max config.ringCapacity Link.maxDatagram) → ∀ n,
        (reads { reader, link } n).outcomes <+:
          split config.ringCapacity config.effectiveMaxPayload [] link.octets ∧
        (reads { reader, link } n).faults ++ (reads { reader, link } n).link.faults =
          link.faults ∧
        ((split config.ringCapacity config.effectiveMaxPayload [] link.octets).length +
            link.backlog ≤ n ∨ (reads { reader, link } n).Idle →
          (reads { reader, link } n).outcomes =
            split config.ringCapacity config.effectiveMaxPayload [] link.octets) := by
  obtain ⟨reader, hcreate, -⟩ := exists_create hvalid
  refine ⟨reader, hcreate, fun link hwhole n => ?_⟩
  have hmeaning : Splits config link.octets _ := rfl
  obtain ⟨later, hkeeps, hlater⟩ :=
    keeps_reads hvalid (follows_splits hcobs) hcreate hwhole hmeaning n
  refine ⟨⟨later, hkeeps.said⟩, hkeeps.faults, fun hend => ?_⟩
  rw [← hkeeps.said, hlater hend, List.append_nil]

/-- A record that does not unstuff, a frame in two chunks, a record as long as the queue, and one
too short for a header; in between a failure and a silent receive. -/
def Link.noise : Link :=
  { Link.stream with
    arrivals := [.chunk [0, 5], .fault .closed, .chunk [1, 0, 2, 7, 1, 2, 1, 1], .chunk [],
      .chunk [1, 1, 0, 1, 2, 3, 4, 5, 6, 7, 8, 9, 1, 0]] }

theorem Session.reads_split_noise :
    ∃ reader, Reader.create { protocol := .cobs, ringCapacity := 9 } = .ok reader ∧
      (reads { reader, link := .noise } 57).outcomes =
        [.error .stuffing, .ok ⟨7, 0, [0]⟩, .error (.payloadTooLarge 9 1),
          .error (.truncated 0 6)] := by
  have hvalid : FrameConfig.validate { protocol := .cobs, ringCapacity := 9 } = .ok () := by decide
  obtain ⟨reader, hcreate, hreads⟩ := reads_split hvalid rfl
  have hlimit : FrameConfig.effectiveMaxPayload { protocol := .cobs, ringCapacity := 9 } = 1 := by
    decide
  have hsplit : split 9 1 [] Link.noise.octets =
      [.error .stuffing, .ok ⟨7, 0, [0]⟩, .error (.payloadTooLarge 9 1),
        .error (.truncated 0 6)] := by
    decide +kernel
  obtain ⟨-, -, hend⟩ := hreads .noise ⟨rfl, nofun⟩ 57
  rw [hlimit, hsplit] at hend
  exact ⟨reader, hcreate, hend (.inl (by decide))⟩

end TopicBridge
