import TopicBridge.Proofs.Headroom
import TopicBridge.Proofs.Lossless
import TopicBridge.Proofs.Moves
import TopicBridge.Proofs.Splitting

/-! A delimited stream with anything in front of its frames. Behind a zero the splitting begins
afresh, so what stands in front costs at most the frame that it runs into; and whatever a read
returns, one record or one full queue is all that it uses up for it. -/
namespace TopicBridge

section
variable {capacity maxPayload : Nat}

theorem split_append_zero (collected front rest : Bytes) :
    split capacity maxPayload collected (front ++ 0 :: rest) =
      split capacity maxPayload collected (front ++ [0]) ++
        split capacity maxPayload [] rest := by
  induction front generalizing collected with
  | nil =>
      rw [List.nil_append, List.nil_append, split, split, if_pos rfl, if_pos rfl]
      by_cases hempty : collected = []
      · rw [if_pos hempty, if_pos hempty]
        rfl
      · rw [if_neg hempty, if_neg hempty]
        rfl
  | cons b front ih =>
      rw [List.cons_append, List.cons_append, split, split]
      by_cases hzero : b = 0
      · rw [if_pos hzero, if_pos hzero]
        by_cases hempty : collected = []
        · rw [if_pos hempty, if_pos hempty, ih]
        · rw [if_neg hempty, if_neg hempty, ih, List.cons_append]
      · rw [if_neg hzero, if_neg hzero]
        by_cases hfull : collected.length + 1 = capacity
        · rw [if_pos hfull, if_pos hfull, ih, List.cons_append]
        · rw [if_neg hfull, if_neg hfull, ih]

/-- Each outcome takes an octet. -/
theorem length_split_le (collected s : Bytes) :
    (split capacity maxPayload collected s).length ≤ s.length := by
  induction s generalizing collected with
  | nil => exact Nat.le_refl 0
  | cons b rest ih =>
      have hrest := ih []
      have hmore := ih (collected ++ [b])
      rw [split, List.length_cons]
      split
      · split
        · exact Nat.le_succ_of_le hrest
        · exact Nat.succ_le_succ hrest
      · split
        · exact Nat.succ_le_succ hrest
        · exact Nat.le_succ_of_le hmore

end

section
variable {config : FrameConfig} {frame : Frame} {frames : List Frame}

theorem FrameConfig.split_wire (hvalid : config.validate = .ok ()) (hcobs : config.protocol = .cobs)
    (hsize : frame.payload.length ≤ config.effectiveMaxPayload) (rest : Bytes) :
    split config.ringCapacity config.effectiveMaxPayload [] (frame.wire .cobs ++ rest) =
      .ok frame :: split config.ringCapacity config.effectiveMaxPayload [] rest := by
  have hfield := Nat.le_trans hsize config.effectiveMaxPayload_le_maxLength
  have hne : Cobs.stuff frame.record ≠ [] := Cobs.stuff_ne_nil frame.record_ne_nil
  have hfits := length_wire_le_ringCapacity hvalid hsize
  rw [hcobs, Frame.wire, List.length_append] at hfits
  rw [Frame.wire, List.append_assoc]
  show split _ _ [] (_ ++ 0 :: rest) = _
  rw [split_record hne (Cobs.zero_not_mem_stuff _) hfits, Frame.ofStuffed_stuff hsize hfield]

theorem FrameConfig.split_wires (hvalid : config.validate = .ok ())
    (hcobs : config.protocol = .cobs)
    (hsizes : ∀ frame ∈ frames, frame.payload.length ≤ config.effectiveMaxPayload) :
    split config.ringCapacity config.effectiveMaxPayload [] (frames.flatMap (Frame.wire .cobs)) =
      frames.map .ok := by
  induction frames with
  | nil => rfl
  | cons frame frames ih =>
      obtain ⟨hsize, hothers⟩ := List.forall_mem_cons.mp hsizes
      rw [List.flatMap_cons, split_wire hvalid hcobs hsize, ih hothers, List.map_cons]

/-- Octets in front of the frames may spoil the first of them. -/
theorem FrameConfig.tail_suffix_split (hvalid : config.validate = .ok ())
    (hcobs : config.protocol = .cobs)
    (hsizes : ∀ frame ∈ frames, frame.payload.length ≤ config.effectiveMaxPayload)
    (garbage : Bytes) :
    frames.tail.map .ok <:+
      split config.ringCapacity config.effectiveMaxPayload []
        (garbage ++ frames.flatMap (Frame.wire .cobs)) := by
  cases frames with
  | nil => exact List.nil_suffix
  | cons frame frames =>
      obtain ⟨-, hothers⟩ := List.forall_mem_cons.mp hsizes
      have hstream : garbage ++ (frame :: frames).flatMap (Frame.wire .cobs) =
          (garbage ++ Cobs.stuff frame.record) ++ 0 :: frames.flatMap (Frame.wire .cobs) := by
        simp only [List.flatMap_cons, Frame.wire, Frame.delimiter, List.append_assoc,
          List.singleton_append]
      rw [hstream, split_append_zero, split_wires hvalid hcobs hothers]
      exact List.suffix_append _ _

/-- Octets that end with a zero, or none, spoil no frame. -/
theorem FrameConfig.suffix_split (hvalid : config.validate = .ok ())
    (hcobs : config.protocol = .cobs)
    (hsizes : ∀ frame ∈ frames, frame.payload.length ≤ config.effectiveMaxPayload)
    {garbage : Bytes} (hends : garbage = [] ∨ garbage.getLast? = some 0) :
    frames.map .ok <:+
      split config.ringCapacity config.effectiveMaxPayload []
        (garbage ++ frames.flatMap (Frame.wire .cobs)) := by
  rcases hends with rfl | hlast
  · exact ⟨[], (split_wires hvalid hcobs hsizes).symm⟩
  · obtain ⟨front, rfl⟩ := List.getLast?_eq_some_iff.mp hlast
    rw [List.append_assoc, List.singleton_append, split_append_zero,
      split_wires hvalid hcobs hsizes]
    exact List.suffix_append _ _

end

/-- The octets used up for a result: empty records, and behind them a record and its zero, a full
queue without a zero, or nothing. -/
inductive Spends (capacity maxPayload : Nat) : Bytes → Except FrameError (Option Frame) → Prop
  | nothing {result : Except FrameError (Option Frame)} : verdict result = [] →
      Spends capacity maxPayload [] result
  | record {stuffed : Bytes} : stuffed ≠ [] → 0 ∉ stuffed →
      Spends capacity maxPayload (stuffed ++ [0]) ((Frame.ofStuffed maxPayload stuffed).map some)
  | full {s : Bytes} : 0 ∉ s → s.length = capacity →
      Spends capacity maxPayload s (.error (.payloadTooLarge capacity maxPayload))
  | emptied {used : Bytes} {result : Except FrameError (Option Frame)} :
      Spends capacity maxPayload used result → Spends capacity maxPayload (0 :: used) result

section
variable {capacity maxPayload : Nat} {used more s : Bytes}
  {result vain : Except FrameError (Option Frame)} {look : Frame.Look}

/-- What was used up in vain comes on top. -/
theorem Spends.append (hused : Spends capacity maxPayload used vain) (hvain : vain = .ok none)
    (hmore : Spends capacity maxPayload more result) :
    Spends capacity maxPayload (used ++ more) result := by
  induction hused with
  | nothing => exact hmore
  | record => exact absurd hvain Frame.map_some_ne_none
  | full => cases hvain
  | emptied _ ih => exact .emptied (ih hvain)

theorem spends_looksPast (h : Frame.LooksPast capacity maxPayload s look) :
    ∃ used, s = used ++ s.drop look.consumed ∧ Spends capacity maxPayload used look.result := by
  induction h with
  | nothing => exact ⟨[], rfl, .nothing rfl⟩
  | emptied _ ih =>
      obtain ⟨used, hused, hspends⟩ := ih
      refine ⟨0 :: used, ?_, .emptied hspends⟩
      rw [Frame.Look.after, Nat.add_comm, List.drop_succ_cons, List.cons_append, ← hused]
  | @ended stuffed hne hclean rest =>
      have hlength : (stuffed ++ [0]).length = stuffed.length + 1 := List.length_append
      refine ⟨stuffed ++ [0], ?_, .record hne hclean⟩
      rw [List.append_cons, ← hlength, List.drop_left]
  | @full s _ hclean hfull =>
      refine ⟨s, ?_, .full hclean hfull⟩
      rw [Frame.Look.failed, ← hfull, List.drop_length, List.append_nil]
  | going => exact ⟨[], rfl, .nothing rfl⟩

end

namespace Reader

section
variable {config : FrameConfig} {reader after : Reader} {result : Except FrameError (Option Frame)}

theorem Sound.spends_assemble (hcobs : config.protocol = .cobs) (hsound : Sound config reader) :
    ∃ used, reader.waiting = used ++ reader.assemble.2.waiting ∧
      Spends config.ringCapacity config.effectiveMaxPayload used reader.assemble.1 := by
  obtain ⟨used, hused, hspends⟩ :=
    spends_looksPast (FrameConfig.looksPast_look hcobs reader.ring.toList)
  rw [← hsound.toList_assemble] at hused
  rw [← hsound.result_assemble] at hspends
  refine ⟨used, ?_, hspends⟩
  rw [waiting, waiting, pending_assemble, hused, List.append_assoc]

theorem Drains.spends (hvalid : config.validate = .ok ()) (hcobs : config.protocol = .cobs)
    (h : Drains reader result after) (hsound : Sound config reader) :
    ∃ used, reader.waiting = used ++ after.waiting ∧
      Spends config.ringCapacity config.effectiveMaxPayload used result := by
  induction h with
  | looked => exact hsound.spends_assemble hcobs
  | full hnone _ hfull => exact absurd hfull (hsound.free_assemble hvalid hnone)
  | fed hnone _ _ hfeeds _ ih =>
      obtain ⟨used, hused, hvain⟩ := hsound.spends_assemble hcobs
      obtain ⟨more, hmore, hspends⟩ := ih (hsound.assemble.feeds hfeeds)
      refine ⟨used ++ more, ?_, hvain.append hnone hspends⟩
      rw [hused, ← hfeeds.waiting, hmore, List.append_assoc]

theorem Sound.spends_readFrame (hvalid : config.validate = .ok ())
    (hcobs : config.protocol = .cobs) (hsound : Sound config reader) {link : Link}
    (hwhole : link.Whole (max config.ringCapacity Link.maxDatagram)) :
    ∃ used, reader.waiting ++ link.octets =
        used ++ ((reader.readFrame link).2.1.waiting ++ (reader.readFrame link).2.2.octets) ∧
      Spends config.ringCapacity config.effectiveMaxPayload used (reader.readFrame link).1 := by
  obtain ⟨used, hused, hspends⟩ := reader.drains_drain.spends hvalid hcobs hsound
  have hdrained := hsound.drain hvalid
  have hoctets := Link.octets_receive (hdrained.whole_room hwhole).fits
  have hattempts := reader.attempts_readFrame link
  generalize reader.readFrame link = answer at hattempts ⊢
  cases hattempts with
  | drained => exact ⟨used, by rw [hused, List.append_assoc], hspends⟩
  | failed hnone hreceive | silent hnone hreceive =>
      rw [hreceive] at hoctets
      refine ⟨used, ?_, ?_⟩
      · rw [hused, hoctets, List.append_assoc]
        rfl
      · rw [← List.append_nil used]
        exact hspends.append hnone (.nothing rfl)
  | @received data _ hnone _ hreceive =>
      have hpending := reader.drains_drain.pending_eq_nil hnone
      obtain ⟨more, hmore, hlast⟩ :=
        (drains_drain _).spends hvalid hcobs (hdrained.holding data)
      rw [waiting_holding hpending] at hmore
      rw [hreceive] at hoctets
      refine ⟨used ++ more, ?_, hspends.append hnone hlast⟩
      rw [hused, hoctets, Link.yielded, List.append_assoc, ← List.append_assoc _ data, hmore]
      simp only [List.append_assoc]

end
end Reader

namespace Session

/-- On a link that nobody has closed the reads fail only for a while. -/
theorem transient_reads (session : Session) (h : session.link.Unbroken)
    (hsofar : ∀ cause, .error cause ∈ session.results → cause.isTransient = true) (n : Nat) :
    (session.reads n).link.Unbroken ∧
      ∀ cause, .error cause ∈ (session.reads n).results → cause.isTransient = true := by
  induction n with
  | zero => exact ⟨h, hsofar⟩
  | succ n ih =>
      obtain ⟨hlink, hresults⟩ := ih
      obtain ⟨hread, hnext⟩ := (session.reads n).reader.isTransient_readFrame hlink
      refine ⟨hnext, fun cause hcause => ?_⟩
      rcases List.mem_append.mp hcause with hbefore | hnow
      · exact hresults cause hbefore
      · exact hread cause (List.mem_singleton.mp hnow).symm

/-- A corrupt stretch in front of delimited frames costs at most the first of them, and none if it
is empty or ends with a zero, however long it is and wherever the stream is cut: enough reads end
with all the others. No read fails for good unless the link was closed, and each uses up, behind
empty records, one record or one full queue without a zero for what it returns. -/
theorem reads_recover {config : FrameConfig} (hvalid : config.validate = .ok ())
    (hcobs : config.protocol = .cobs) (garbage : Bytes) {frames : List Frame}
    (hsizes : ∀ frame ∈ frames, frame.payload.length ≤ config.effectiveMaxPayload) :
    ∃ encodings reader, frames.mapM (Frame.encode .cobs) = .ok encodings ∧
      Reader.create config = .ok reader ∧
      ∀ link : Link, link.Whole (max config.ringCapacity Link.maxDatagram) →
        link.octets = garbage ++ encodings.flatten → ∀ n,
        let session := reads { reader, link } n
        (link.octets.length + link.backlog ≤ n ∨ session.Idle →
          frames.tail.map .ok <:+ session.outcomes ∧
          (garbage = [] ∨ garbage.getLast? = some 0 → frames.map .ok <:+ session.outcomes)) ∧
        session.faults ++ session.link.faults = link.faults ∧
        (link.Unbroken → ∀ cause, .error cause ∈ session.results → cause.isTransient = true) ∧
        ∃ used, session.reader.waiting ++ session.link.octets =
            used ++ (session.read.reader.waiting ++ session.read.link.octets) ∧
          Spends config.ringCapacity config.effectiveMaxPayload used
            (session.reader.readFrame session.link).1 := by
  have haccepted : ∀ frame ∈ frames, frame.Accepted config := by
    intro frame hframe
    refine ⟨hsizes frame hframe, fun hmarked => ?_⟩
    rw [hcobs] at hmarked
    cases hmarked
  obtain ⟨reader, hcreate, -⟩ := exists_create hvalid
  have hencode := Frame.mapM_encode haccepted
  rw [hcobs] at hencode
  refine ⟨_, reader, hencode, hcreate, fun link hwhole hoctets n => ?_⟩
  rw [← List.flatMap_def] at hoctets
  have hmeaning : Splits config link.octets _ := rfl
  obtain ⟨later, hkeeps, hlater⟩ :=
    keeps_reads hvalid (follows_splits hcobs) hcreate hwhole hmeaning n
  refine ⟨fun hend => ?_, hkeeps.faults, fun hunbroken => ?_, ?_⟩
  · have hlength : (split config.ringCapacity config.effectiveMaxPayload [] link.octets).length ≤
        link.octets.length := length_split_le [] link.octets
    have hnone : later = [] := hlater (hend.imp (fun hmany => by omega) id)
    have hsaid := hkeeps.said
    rw [hnone, List.append_nil, hoctets] at hsaid
    rw [hsaid]
    exact ⟨FrameConfig.tail_suffix_split hvalid hcobs hsizes garbage,
      FrameConfig.suffix_split hvalid hcobs hsizes⟩
  · exact (transient_reads { reader, link } hunbroken nofun n).2
  · exact hkeeps.sound.spends_readFrame hvalid hcobs hkeeps.whole

end Session

/-- Eleven octets without a zero in front of two frames, with a failure and a silent receive in
between. A queue of nine is full twice before the first frame ends. -/
def Link.corrupted : Link :=
  { Link.stream with
    arrivals := [.chunk [1, 2, 3], .fault (.io .inputOutput), .chunk [4, 5, 6, 7, 8, 9, 1, 2, 2, 7],
      .chunk [], .chunk [1, 1, 1, 1, 1, 0, 3, 8, 1, 5, 1], .chunk [3, 192, 5, 0]] }

theorem Session.reads_recover_corrupted :
    ∃ reader, Reader.create { protocol := .cobs, ringCapacity := 9 } = .ok reader ∧
      [.ok ⟨8, 1, [5]⟩] <:+ (reads { reader, link := .corrupted } 90).outcomes ∧
      ∀ n cause, .error cause ∈ (reads { reader, link := .corrupted } n).results →
        cause.isTransient = true := by
  have hvalid : FrameConfig.validate { protocol := .cobs, ringCapacity := 9 } = .ok () := by decide
  have hsizes : ∀ frame ∈ ([⟨7, 0, []⟩, ⟨8, 1, [5]⟩] : List Frame), frame.payload.length ≤
      FrameConfig.effectiveMaxPayload { protocol := .cobs, ringCapacity := 9 } := by decide
  obtain ⟨encodings, reader, hencode, hcreate, hrecover⟩ :=
    reads_recover hvalid rfl [1, 2, 3, 4, 5, 6, 7, 8, 9, 1, 2] hsizes
  have hencodings : encodings = [[2, 7, 1, 1, 1, 1, 1, 0], [3, 8, 1, 5, 1, 3, 192, 5, 0]] := by
    apply Except.ok.inj
    rw [← hencode]
    decide +kernel
  have hoctets : Link.corrupted.octets =
      [1, 2, 3, 4, 5, 6, 7, 8, 9, 1, 2] ++ encodings.flatten := by
    rw [hencodings]
    rfl
  have hwhole : Link.corrupted.Whole (max 9 Link.maxDatagram) := ⟨rfl, nofun⟩
  have hunbroken : Link.corrupted.Unbroken := ⟨rfl, by decide⟩
  obtain ⟨hend, -⟩ := hrecover _ hwhole hoctets 90
  refine ⟨reader, hcreate, (hend (.inl (by decide))).1, fun n => ?_⟩
  obtain ⟨-, -, htransient, -⟩ := hrecover _ hwhole hoctets n
  exact htransient hunbroken

end TopicBridge
