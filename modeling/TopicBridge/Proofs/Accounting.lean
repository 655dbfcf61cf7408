import TopicBridge.Proofs.Headroom
import TopicBridge.Proofs.Provenance

/-! The counters of a reader against the results of its reads, on any link. A receive that fails or
yields nothing leaves the reader as draining left it, and draining that again changes nothing, so
that a run comes to the same without such receives. -/
namespace TopicBridge

/-- The error in a result, unless it is the link's. -/
def rejected : Except FrameError (Option Frame) → List FrameError
  | .ok _ => []
  | .error (.link _) => []
  | .error cause => [cause]

theorem foldl_verdict (stats : Stats) (result : Except FrameError (Option Frame)) :
    (verdict result).foldl Stats.count stats =
      { frames := stats.frames + (frames result).length
        bytes := stats.bytes + ((frames result).flatMap Frame.payload).length
        dropped := stats.dropped + (rejected result).length
        overflows := stats.overflows } := by
  cases result with
  | ok found =>
      cases found with
      | none => rfl
      | some frame =>
          rw [frames, List.flatMap_singleton]
          rfl
  | error cause => cases cause <;> rfl

namespace Reader

section
variable {config : FrameConfig} {reader after : Reader}
  {result : Except FrameError (Option Frame)}

theorem Drains.stats (hvalid : config.validate = .ok ()) (h : Drains reader result after)
    (hsound : Sound config reader) :
    after.stats = (verdict result).foldl Stats.count reader.stats := by
  induction h with
  | looked => exact hsound.stats_assemble
  | full hnone _ hfull => exact absurd hfull (hsound.free_assemble hvalid hnone)
  | fed hnone _ _ hfeeds _ ih =>
      rw [ih (hsound.assemble.feeds hfeeds), hfeeds.stats, hsound.stats_assemble, hnone]
      rfl

theorem Sound.stats_drain_of_none (hvalid : config.validate = .ok ())
    (hsound : Sound config reader) (hnone : reader.drain.1 = .ok none) :
    reader.drain.2.stats = reader.stats := by
  rw [reader.drains_drain.stats hvalid hsound, hnone]
  rfl

theorem Sound.stats_readFrame (hvalid : config.validate = .ok ()) (hsound : Sound config reader)
    (link : Link) :
    (reader.readFrame link).2.1.stats =
      (verdict (reader.readFrame link).1).foldl Stats.count reader.stats := by
  have hattempts := reader.attempts_readFrame link
  generalize reader.readFrame link = answer at hattempts ⊢
  cases hattempts with
  | drained => exact reader.drains_drain.stats hvalid hsound
  | failed hnone => exact hsound.stats_drain_of_none hvalid hnone
  | silent hnone => exact hsound.stats_drain_of_none hvalid hnone
  | @received data _ hnone =>
      have hheld := (hsound.drain hvalid).holding data
      have hstats := (reader.drain.2.holding data).drains_drain.stats hvalid hheld
      rw [← hsound.stats_drain_of_none hvalid hnone]
      exact hstats

end
end Reader

namespace Session

def rejections (session : Session) : List FrameError := session.results.flatMap rejected

def account (session : Session) : Stats where
  frames := session.frames.length
  bytes := (session.frames.flatMap Frame.payload).length
  dropped := session.rejections.length

theorem account_read (session : Session) :
    session.read.account =
      (verdict (session.reader.readFrame session.link).1).foldl Stats.count session.account := by
  rw [foldl_verdict]
  simp only [account, read, frames, rejections, List.flatMap_append, List.flatMap_singleton,
    List.length_append]

theorem Unspilt.stats_reads {config : FrameConfig} {session : Session}
    (hvalid : config.validate = .ok ()) (h : Unspilt config session)
    (hstats : session.reader.stats = session.account) (n : Nat) :
    (session.reads n).reader.stats = (session.reads n).account := by
  induction n with
  | zero => exact hstats
  | succ n ih =>
      have hsound := (h.reads hvalid n).sound
      rw [Session.reads, account_read, ← ih]
      exact hsound.stats_readFrame hvalid _

end Session

theorem Ring.skip_skip_zero (ring : Ring) (n : Nat) : (ring.skip n).skip 0 = ring.skip n := by
  have hhead := (ring.skip n).head_lt
  have hnone : (ring.skip n).available 0 = 0 := Nat.zero_min _
  have hempty : (ring.skip n).length = 0 → (ring.skip n).head = 0 := by
    intro hzero
    exact if_pos (Nat.sub_eq_zero_iff_le.mp hzero)
  generalize ring.skip n = left at hhead hnone hempty ⊢
  rw [skip, Ring.mk.injEq]
  refine ⟨rfl, ?_, ?_⟩
  · rw [hnone]
    split
    · next hle => exact (hempty (Nat.le_zero.mp hle)).symm
    · exact Nat.mod_eq_of_lt hhead
  · rw [hnone, Nat.sub_zero]

namespace Frame

section
variable {protocol : Protocol} {capacity maxPayload : Nat} {s : Bytes} {look : Look} {ring : Ring}

theorem Seeks.again (h : Seeks maxPayload s look) (hnone : look.result = .ok none) :
    lookMarked maxPayload (s.drop look.consumed) = .waiting 0 := by
  induction h with
  | nowhere =>
      apply lookMarked_short
      simp only [Look.waiting, List.length_drop]
      omega
  | before _ _ ih =>
      rw [Look.after, ← List.drop_drop]
      exact ih hnone
  | first => cases hnone
  | last => cases hnone
  | waiting hs hfirst hlast => exact lookMarked_of_waiting hs hfirst hlast
  | failed => cases hnone
  | passed _ _ _ _ ih =>
      rw [Look.after, ← List.drop_drop]
      exact ih hnone

theorem LooksPast.again (h : LooksPast capacity maxPayload s look)
    (hnone : look.result = .ok none) :
    lookDelimited capacity maxPayload (s.drop look.consumed) = .waiting 0 := by
  induction h with
  | nothing => exact lookDelimited_nil
  | emptied _ ih =>
      rw [Look.after, Nat.add_comm, List.drop_succ_cons]
      exact ih hnone
  | ended _ _ rest => exact absurd hnone map_some_ne_none
  | full => cases hnone
  | going hclean hroom => exact lookDelimited_open hclean hroom

/-- What a look in vain leaves is looked at in vain, and stays. -/
theorem look_again (h : (Frame.look protocol capacity maxPayload s).result = .ok none) :
    Frame.look protocol capacity maxPayload
      (s.drop (Frame.look protocol capacity maxPayload s).consumed) = .waiting 0 := by
  cases protocol with
  | px4 => exact (seeks_lookMarked maxPayload s).again h
  | cobs => exact (looksPast_lookDelimited capacity maxPayload s).again h

theorem decode_again (h : (decode protocol maxPayload ring).1 = .ok none) :
    decode protocol maxPayload (decode protocol maxPayload ring).2 =
      (.ok none, (decode protocol maxPayload ring).2) := by
  rw [decode_fst] at h
  have hagain := look_again h
  rw [← toList_decode, ← capacity_decode protocol maxPayload ring] at hagain
  rw [decode, hagain]
  exact Prod.ext rfl (ring.skip_skip_zero _)

end
end Frame

namespace Reader

section
variable {reader after : Reader} {result : Except FrameError (Option Frame)}

theorem assemble_again (h : reader.assemble.1 = .ok none) :
    reader.assemble.2.assemble = (.ok none, reader.assemble.2) := by
  have hdecode := Frame.decode_again h
  have hmax : reader.assemble.2.maxPayload = reader.maxPayload := by
    rw [maxPayload, config_assemble, maxPayload]
  rw [assemble_fst] at h
  rw [← ring_assemble, ← hmax, ← config_assemble] at hdecode
  generalize reader.assemble.2 = left at hdecode ⊢
  rw [assemble, hdecode]

/-- After draining in vain, draining again is in vain and changes nothing. -/
theorem Drains.again (h : Drains reader result after) (hnone : result = .ok none) :
    after.drain = (.ok none, after) := by
  induction h with
  | @looked reader hstop =>
      have hpending : reader.assemble.2.pending = [] := by
        rw [pending_assemble]
        exact hstop hnone
      rw [drain_eq_assemble fun _ => hpending]
      exact assemble_again hnone
  | full => cases hnone
  | fed _ _ _ _ _ ih => exact ih hnone

theorem drain_drain (h : reader.drain.1 = .ok none) : reader.drain.2.drain = reader.drain := by
  rw [reader.drains_drain.again h, ← h]

end
end Reader

/-- Whether a receive gets an octet of it. -/
def Arrival.speaks : Arrival → Bool
  | .chunk data => !data.isEmpty
  | .fault _ => false

namespace Link

/-- The link without the failures and the silence that are queued on it. -/
def condensed (link : Link) : Link :=
  { link with arrivals := link.arrivals.filter Arrival.speaks }

section
variable {link : Link} {room : Nat}

theorem filter_speaks_leftover (kind : LinkKind) (room : Nat) (data : Bytes) :
    (leftover kind room data).filter Arrival.speaks = leftover kind room data := by
  cases kind with
  | datagram => rfl
  | stream =>
      rw [leftover]
      split
      · rfl
      · next hlong => simpa [Arrival.speaks] using hlong

/-- A receive that yields nothing takes nothing but failures and silence from the link. -/
theorem condensed_receive_of_nil (hroom : 0 < room) (h : yielded (link.receive room).1 = []) :
    (link.receive room).2.condensed = link.condensed := by
  have hmeets := link.meets_receive room
  generalize link.receive room = receipt at hmeets h
  cases hmeets with
  | closed => rfl
  | nothing => rfl
  | fault _ hfault =>
      rw [condensed, condensed, hfault]
      rfl
  | @chunk data rest _ hchunk =>
      obtain rfl : data = [] := (List.take_eq_nil_iff.mp h).resolve_left (Nat.ne_of_gt hroom)
      rw [condensed, condensed, hchunk, leftover_nil]
      rfl

theorem receive_condensed (h : yielded (link.receive room).1 ≠ []) :
    link.condensed.receive room = ((link.receive room).1, (link.receive room).2.condensed) := by
  have hmeets := link.meets_receive room
  generalize link.receive room = receipt at hmeets h
  cases hmeets with
  | closed => exact absurd rfl h
  | nothing => exact absurd rfl h
  | fault => exact absurd rfl h
  | @chunk data rest hopen hchunk =>
      have hspeaks : (Arrival.chunk data).speaks = true := by
        cases data with
        | nil => exact absurd List.take_nil h
        | cons => rfl
      have hcondensed : link.condensed.arrivals = .chunk data :: rest.filter Arrival.speaks := by
        rw [condensed, hchunk, List.filter_cons_of_pos hspeaks]
      rw [receive, if_neg (by simp [condensed, hopen]), hcondensed]
      simp only [condensed, List.filter_append, filter_speaks_leftover]

end
end Link

namespace Session

/-- The next read asks the link and gets no octet from it. -/
def Lapses (session : Session) : Prop :=
  session.reader.drain.1 = .ok none ∧
    Link.yielded (session.link.receive (session.reader.drain.2.room session.link.kind)).1 = []

instance (session : Session) : Decidable session.Lapses := inferInstanceAs (Decidable (_ ∧ _))

/-- How many of the first `n` reads do not lapse. -/
def heard (session : Session) (n : Nat) : Nat :=
  (List.range n).countP fun i => ¬ (session.reads i).Lapses

/-- On the condensed link `other` has come as far as `session` on its own. -/
structure Agrees (session other : Session) : Prop where
  drain : other.reader.drain = session.reader.drain
  stats : other.reader.stats = session.reader.stats
  link : other.link = session.link.condensed
  outcomes : other.outcomes = session.outcomes

section
variable {config : FrameConfig} {session other : Session}

theorem heard_succ (session : Session) (n : Nat) :
    session.heard (n + 1) = session.heard n + if (session.reads n).Lapses then 0 else 1 := by
  rw [heard, List.range_succ, List.countP_append, List.countP_singleton]
  by_cases hlapses : (session.reads n).Lapses <;> simp [hlapses, heard]

theorem Lapses.readFrame (h : session.Lapses) :
    verdict (session.reader.readFrame session.link).1 = [] ∧
      (session.reader.readFrame session.link).2 =
        (session.reader.drain.2,
          (session.link.receive (session.reader.drain.2.room session.link.kind)).2) := by
  obtain ⟨hnone, hnothing⟩ := h
  have hattempts := session.reader.attempts_readFrame session.link
  generalize session.reader.readFrame session.link = answer at hattempts
  cases hattempts with
  | drained hsome => exact absurd hnone hsome
  | failed _ hreceive | silent _ hreceive => exact ⟨rfl, by rw [hreceive]⟩
  | received _ hdata hreceive =>
      rw [hreceive] at hnothing
      exact absurd hnothing hdata

/-- A read that lapses is none on the condensed link. -/
theorem Agrees.lapse (hvalid : config.validate = .ok ()) (hsound : session.reader.Sound config)
    (h : Agrees session other) (hlapses : session.Lapses) : Agrees session.read other := by
  obtain ⟨hverdict, hrest⟩ := hlapses.readFrame
  have hroom := (hsound.drain hvalid).room_pos hvalid session.link.kind
  have hcondensed := Link.condensed_receive_of_nil hroom hlapses.2
  refine ⟨?_, ?_, ?_, ?_⟩
  · rw [read, hrest, h.drain]
    exact (Reader.drain_drain hlapses.1).symm
  · rw [read, hrest, h.stats]
    exact (hsound.stats_drain_of_none hvalid hlapses.1).symm
  · rw [read, hrest, h.link]
    exact hcondensed.symm
  · rw [outcomes_read, hverdict, List.append_nil]
    exact h.outcomes

theorem Agrees.readFrame (h : Agrees session other) (hheard : ¬ session.Lapses) :
    ¬ other.Lapses ∧ other.reader.readFrame other.link =
      ((session.reader.readFrame session.link).1, (session.reader.readFrame session.link).2.1,
        (session.reader.readFrame session.link).2.2.condensed) := by
  have hkind : other.link.kind = session.link.kind := by rw [h.link]; rfl
  have hattempts := session.reader.attempts_readFrame session.link
  rw [Lapses] at hheard ⊢
  generalize session.reader.readFrame session.link = answer at hattempts
  rw [hkind, h.drain]
  cases hattempts with
  | drained hsome =>
      refine ⟨fun hlapses => hsome hlapses.1, ?_⟩
      rw [Reader.readFrame_of_ne_none (h.drain ▸ hsome), h.drain, h.link]
  | failed hnone hreceive | silent hnone hreceive =>
      exact absurd ⟨hnone, by rw [hreceive]; rfl⟩ hheard
  | received hnone hdata hreceive =>
      have hcondensed := Link.receive_condensed (fun hnothing => hheard ⟨hnone, hnothing⟩)
      rw [hreceive] at hcondensed
      rw [h.link, hcondensed]
      refine ⟨fun hlapses => hdata hlapses.2, ?_⟩
      rw [← h.drain] at hnone hcondensed
      rw [Reader.readFrame_of_octets hnone hdata hcondensed, h.drain]

/-- A read that does not lapse is the same read on the condensed link. -/
theorem Agrees.read (h : Agrees session other) (hheard : ¬ session.Lapses) :
    Agrees session.read other.read := by
  obtain ⟨-, hread⟩ := h.readFrame hheard
  refine ⟨?_, ?_, ?_, ?_⟩
  · rw [Session.read, hread]
    rfl
  · rw [Session.read, hread]
    rfl
  · rw [Session.read, hread]
    rfl
  · rw [outcomes_read, outcomes_read, hread, h.outcomes]

theorem Agrees.reads (hvalid : config.validate = .ok ()) (hunspilt : Unspilt config session)
    (h : Agrees session other) (n : Nat) :
    Agrees (session.reads n) (other.reads (session.heard n)) ∧
      ∀ i < session.heard n, ¬ (other.reads i).Lapses := by
  induction n with
  | zero => exact ⟨h, fun i hi => absurd hi (Nat.not_lt_zero i)⟩
  | succ n ih =>
      obtain ⟨hagrees, hnever⟩ := ih
      rw [heard_succ]
      by_cases hlapses : (session.reads n).Lapses
      · rw [if_pos hlapses]
        exact ⟨hagrees.lapse hvalid (hunspilt.reads hvalid n).sound hlapses, hnever⟩
      · rw [if_neg hlapses]
        refine ⟨hagrees.read hlapses, fun i hi => ?_⟩
        rcases Nat.lt_succ_iff_lt_or_eq.mp hi with hless | rfl
        · exact hnever i hless
        · exact (hagrees.readFrame hlapses).1

end

/-- The counters of a reader are what its reads have returned: the frames, the octets of their
payloads and the decoding errors. A receive that fails is the result of its read and leaves the
reader as draining left it. So on the link without failures and silence the reads that do not lapse
are a run of their own, with the same frames and decoding errors and the same counters at its
end. -/
theorem reads_account {config : FrameConfig} (hvalid : config.validate = .ok ()) :
    ∃ reader, Reader.create config = .ok reader ∧ ∀ (link : Link) n,
      let session := reads { reader, link } n
      let drained := session.reader.drain
      let answer := session.reader.readFrame session.link
      let heard := heard { reader, link } n
      let other := reads { reader, link := link.condensed } heard
      session.reader.stats =
        { frames := session.frames.length
          bytes := (session.frames.flatMap Frame.payload).length
          dropped := session.rejections.length
          overflows := 0 } ∧
      (∀ cause, drained.1 = .ok none →
        (session.link.receive (drained.2.room session.link.kind)).1 = .error cause →
          answer.1 = .error (.link cause) ∧ answer.2.1 = drained.2 ∧
            drained.2.stats = session.reader.stats) ∧
      (∀ i < heard, ¬ (reads { reader, link := link.condensed } i).Lapses) ∧
      other.outcomes = session.outcomes ∧ other.reader.stats = session.reader.stats ∧
      other.reader.drain = session.reader.drain ∧ other.link = session.link.condensed := by
  obtain ⟨reader, hcreate, hsound, -, hstats⟩ := exists_create hvalid
  refine ⟨reader, hcreate, fun link n => ?_⟩
  have hunspilt : Unspilt config { reader, link } := ⟨hsound, by rw [hstats]⟩
  have hstart : Agrees { reader, link } { reader, link := link.condensed } := ⟨rfl, rfl, rfl, rfl⟩
  obtain ⟨hagrees, hnever⟩ := hstart.reads hvalid hunspilt n
  refine ⟨hunspilt.stats_reads hvalid hstats n, ?_, hnever, hagrees.outcomes, hagrees.stats,
    hagrees.drain, hagrees.link⟩
  intro cause hnone herror
  have hread := Reader.readFrame_of_fault hnone (Prod.ext herror rfl)
  rw [hread]
  exact ⟨rfl, rfl, (hunspilt.reads hvalid n).sound.stats_drain_of_none hvalid hnone⟩

end Session

/-- A payload that fails its check, in two chunks, and a frame, between failures and silence. -/
def Link.faltering : Link :=
  { Link.stream with
    arrivals := [.fault (.io .inputOutput), .chunk [0, 0x3E, 0x3E, 0x3E, 7, 1], .chunk [],
      .chunk [0, 1, 0, 0, 9], .fault .closed,
      .chunk [0x3E, 0x3E, 0x3E, 7, 1, 0, 3, 124, 240, 0x3E, 0x3E, 0x3E]] }

theorem Session.reads_account_faltering :
    ∃ reader, Reader.create { ringCapacity := 12 } = .ok reader ∧
      (reads { reader, link := .faltering } 7).reader.stats =
        { frames := 1, bytes := 3, dropped := 1, overflows := 0 } ∧
      (reads { reader, link := .faltering } 5).results.getLast? = some (.error (.link .closed)) ∧
      (reads { reader, link := Link.faltering.condensed } 3).outcomes =
        (reads { reader, link := .faltering } 7).outcomes ∧
      (reads { reader, link := Link.faltering.condensed } 3).reader.stats =
        { frames := 1, bytes := 3, dropped := 1, overflows := 0 } := by
  have hvalid : FrameConfig.validate { ringCapacity := 12 } = .ok () := by decide
  obtain ⟨reader, hcreate, hreads⟩ := reads_account hvalid
  have hseen : (Reader.create { ringCapacity := 12 }).map (fun reader =>
      let session := reads { reader, link := .faltering } 7
      (heard { reader, link := .faltering } 7, session.frames, session.rejections.length)) =
      .ok (3, [⟨7, 1, [0x3E, 0x3E, 0x3E]⟩], 1) := by
    decide +kernel
  have hmet : (Reader.create { ringCapacity := 12 }).map (fun reader =>
      let session := reads { reader, link := .faltering } 4
      let drained := session.reader.drain
      (drained.1, (session.link.receive (drained.2.room session.link.kind)).1)) =
      .ok (.ok none, .error .closed) := by
    decide +kernel
  rw [hcreate] at hseen hmet
  simp only [Except.map, Except.ok.injEq, Prod.mk.injEq] at hseen hmet
  obtain ⟨hheard, hframes, hrejections⟩ := hseen
  obtain ⟨hnone, hclosed⟩ := hmet
  obtain ⟨hstats, -, -, houtcomes, hsame, -, -⟩ := hreads .faltering 7
  obtain ⟨-, hfailing, -⟩ := hreads .faltering 4
  obtain ⟨hfails, -, -⟩ := hfailing .closed hnone hclosed
  rw [hframes, hrejections] at hstats
  rw [hheard] at houtcomes hsame
  refine ⟨reader, hcreate, hstats, ?_, houtcomes, hsame.trans hstats⟩
  rw [reads, read, List.getLast?_concat, hfails]

end TopicBridge
