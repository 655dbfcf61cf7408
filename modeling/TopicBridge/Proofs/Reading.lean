import TopicBridge.Reader
import TopicBridge.Proofs.Arrivals
import TopicBridge.Proofs.Looks
import TopicBridge.Proofs.Truncation

/-! One read of a stream. A meaning says which outcomes a stream of octets has; if single looks
follow it, then so do draining the queue and a whole read, wherever the stream is cut into chunks
and whatever silence or failure the link has in between. -/
namespace TopicBridge

/-- A frame, or why there is none. -/
abbrev Outcome := Except FrameError Frame

/-- What a result says of the octets: nothing, if it waits or blames the link. -/
def verdict : Except FrameError (Option Frame) → List Outcome
  | .ok (some frame) => [.ok frame]
  | .ok none => []
  | .error (.link _) => []
  | .error cause => [.error cause]

def blame : Except FrameError (Option Frame) → List LinkError
  | .error (.link cause) => [cause]
  | _ => []

theorem verdict_error {cause : FrameError} (h : ∀ fault, cause ≠ .link fault) :
    verdict (.error cause) = [.error cause] := by
  cases cause with
  | link fault => exact absurd rfl (h fault)
  | payloadTooLarge | crcMismatch | stuffing | truncated | lengthMismatch | config => rfl

theorem verdict_map_some {outcome : Outcome} (h : ∀ fault, outcome ≠ .error (.link fault)) :
    verdict (outcome.map some) = [outcome] := by
  cases outcome with
  | ok frame => rfl
  | error cause => exact verdict_error fun fault hfault => h fault (congrArg _ hfault)

theorem verdict_ne_nil {result : Except FrameError (Option Frame)}
    (h : ∀ fault, result ≠ .error (.link fault)) (hne : result ≠ .ok none) :
    verdict result ≠ [] := by
  cases result with
  | ok found =>
      cases found with
      | none => exact absurd rfl hne
      | some frame => exact List.cons_ne_nil _ _
  | error cause =>
      rw [verdict_error fun fault hfault => h fault (congrArg _ hfault)]
      exact List.cons_ne_nil _ _

theorem blame_eq_nil {result : Except FrameError (Option Frame)}
    (h : ∀ fault, result ≠ .error (.link fault)) : blame result = [] := by
  cases result with
  | ok found => rfl
  | error cause =>
      unfold blame
      split
      · next fault hfault => exact absurd hfault (h fault)
      · rfl

def Stats.count (stats : Stats) : Outcome → Stats
  | .ok frame => stats.frame frame.payload.length
  | .error _ => stats.drop

/-- Looks at the beginning of a stream report the outcomes it has, and a stream of which all was
looked at in vain has none. -/
structure Follows (config : FrameConfig) (Meaning : Bytes → List Outcome → Prop) : Prop where
  look : ∀ {s t : Bytes} {outcomes : List Outcome}, s.length ≤ config.ringCapacity →
    Meaning (s ++ t) outcomes → ∃ later, outcomes = verdict (config.look s).result ++ later ∧
      Meaning (s.drop (config.look s).consumed ++ t) later
  quiet : ∀ {s : Bytes} {outcomes : List Outcome}, s.length ≤ config.ringCapacity →
    (config.look s).result = .ok none → Meaning s outcomes → outcomes = []

namespace Reader

/-- The octets received and not used up. -/
def waiting (reader : Reader) : Bytes := reader.ring.toList ++ reader.pending

theorem length_waiting (reader : Reader) : reader.waiting.length = reader.buffered := by
  rw [waiting, buffered, List.length_append, Ring.length_toList]

/-- A reader of the configuration with a queue of its size. -/
structure Sound (config : FrameConfig) (reader : Reader) : Prop where
  configured : reader.config = config
  capacity : reader.ring.capacity = config.ringCapacity

/-- From `before` to `after` a result was reported, while the stream ahead stayed as it is. The
outcomes of the rest are `later`. -/
structure Reports (config : FrameConfig) (Meaning : Bytes → List Outcome → Prop) (ahead : Bytes)
    (outcomes : List Outcome) (before : Reader) (result : Except FrameError (Option Frame))
    (after : Reader) (later : List Outcome) : Prop where
  sound : Sound config after
  said : outcomes = verdict result ++ later
  meaning : Meaning (after.waiting ++ ahead) later
  stats : after.stats = (verdict result).foldl Stats.count before.stats
  innocent : ∀ fault, result ≠ .error (.link fault)

theorem assemble_fst (reader : Reader) :
    reader.assemble.1 = (Frame.decode reader.config.protocol reader.maxPayload reader.ring).1 := rfl

theorem ring_assemble (reader : Reader) :
    reader.assemble.2.ring =
      (Frame.decode reader.config.protocol reader.maxPayload reader.ring).2 := by
  rw [assemble]
  dsimp only
  split <;> rfl

@[simp] theorem config_assemble (reader : Reader) :
    reader.assemble.2.config = reader.config := by
  rw [assemble]
  dsimp only
  split <;> rfl

@[simp] theorem pending_assemble (reader : Reader) :
    reader.assemble.2.pending = reader.pending := by
  rw [assemble]
  dsimp only
  split <;> rfl

section
variable {config : FrameConfig} {Meaning : Bytes → List Outcome → Prop} {reader : Reader}
  {ahead : Bytes} {outcomes : List Outcome}

theorem Sound.look (hsound : Sound config reader) :
    Frame.look reader.config.protocol reader.ring.capacity reader.maxPayload reader.ring.toList =
      config.look reader.ring.toList := by
  rw [hsound.capacity, maxPayload, hsound.configured, FrameConfig.look]

theorem Sound.length_le (hsound : Sound config reader) :
    reader.ring.toList.length ≤ config.ringCapacity := by
  have hroom := reader.ring.length_add_free
  rw [Ring.length_toList, ← hsound.capacity]
  omega

theorem Sound.result_assemble (hsound : Sound config reader) :
    reader.assemble.1 = (config.look reader.ring.toList).result := by
  rw [assemble_fst, Frame.decode_fst, hsound.look]

theorem Sound.toList_assemble (hsound : Sound config reader) :
    reader.assemble.2.ring.toList =
      reader.ring.toList.drop (config.look reader.ring.toList).consumed := by
  rw [ring_assemble, Frame.toList_decode, hsound.look]

theorem Sound.assemble (hsound : Sound config reader) : Sound config reader.assemble.2 := by
  constructor
  · rw [config_assemble, hsound.configured]
  · rw [ring_assemble, Frame.capacity_decode, hsound.capacity]

theorem Sound.innocent_assemble (hsound : Sound config reader) (fault : LinkError) :
    reader.assemble.1 ≠ .error (.link fault) := by
  rw [hsound.result_assemble]
  exact Frame.look_ne_foreign rfl

theorem Sound.stats_assemble (hsound : Sound config reader) :
    reader.assemble.2.stats = (verdict reader.assemble.1).foldl Stats.count reader.stats := by
  have hinnocent := hsound.innocent_assemble
  rw [Reader.assemble] at hinnocent ⊢
  dsimp only at hinnocent ⊢
  split
  · next frame hfound => simp only [hfound, verdict, List.foldl_cons, List.foldl_nil, Stats.count]
  · next hnone => simp only [hnone, verdict, List.foldl_nil]
  · next cause hfailed =>
      rw [hfailed] at hinnocent ⊢
      rw [verdict_error fun fault hfault => hinnocent fault (congrArg _ hfault)]
      rfl

theorem Sound.reports_assemble (hfollows : Follows config Meaning) (hsound : Sound config reader)
    (hmeaning : Meaning (reader.waiting ++ ahead) outcomes) :
    ∃ later, Reports config Meaning ahead outcomes reader reader.assemble.1 reader.assemble.2
      later := by
  rw [waiting, List.append_assoc] at hmeaning
  obtain ⟨later, houtcomes, hlater⟩ := hfollows.look hsound.length_le hmeaning
  refine ⟨later, hsound.assemble, ?_, ?_, hsound.stats_assemble, hsound.innocent_assemble⟩
  · rw [hsound.result_assemble]
    exact houtcomes
  · rw [waiting, hsound.toList_assemble, pending_assemble, List.append_assoc]
    exact hlater

theorem Sound.quiet_assemble (hfollows : Follows config Meaning) (hsound : Sound config reader)
    (hmeaning : Meaning (reader.waiting ++ []) outcomes) (hnone : reader.assemble.1 = .ok none)
    (hpending : reader.pending = []) : outcomes = [] := by
  rw [hsound.result_assemble] at hnone
  rw [waiting, hpending, List.append_nil, List.append_nil] at hmeaning
  exact hfollows.quiet hsound.length_le hnone hmeaning

theorem Sound.free_assemble (hvalid : config.validate = .ok ()) (hsound : Sound config reader)
    (hnone : reader.assemble.1 = .ok none) : reader.assemble.2.ring.free ≠ 0 := by
  rw [hsound.result_assemble] at hnone
  have hroom := FrameConfig.length_drop_look hvalid hsound.length_le hnone
  have hsum := reader.assemble.2.ring.length_add_free
  have hlist := congrArg List.length hsound.toList_assemble
  rw [Ring.length_toList] at hlist
  rw [hsound.assemble.capacity] at hsum
  omega

theorem drain_eq_assemble (h : reader.assemble.1 = .ok none → reader.pending = []) :
    reader.drain = reader.assemble := by
  rw [drain]
  dsimp only
  split
  · next hnone => rw [if_pos (h hnone)]
  · rfl

/-- As much of what is pending as there is room for has moved into the queue. -/
structure Feeds (before after : Reader) : Prop where
  config : after.config = before.config
  capacity : after.ring.capacity = before.ring.capacity
  stats : after.stats = before.stats
  queued : after.ring.toList = before.ring.toList ++ before.pending.take before.ring.free
  pending : after.pending = before.pending.drop before.ring.free

theorem Feeds.waiting {before after : Reader} (h : Feeds before after) :
    after.waiting = before.waiting := by
  rw [Reader.waiting, Reader.waiting, h.queued, h.pending, List.append_assoc,
    List.take_append_drop]

theorem Feeds.length_lt {before after : Reader} (h : Feeds before after)
    (hpending : before.pending ≠ []) (hroom : before.ring.free ≠ 0) :
    after.pending.length < before.pending.length := by
  have hlength : 0 < before.pending.length := List.length_pos_iff.mpr hpending
  rw [h.pending, List.length_drop]
  omega

theorem Sound.feeds {before after : Reader} (hsound : Sound config before)
    (h : Feeds before after) : Sound config after :=
  ⟨h.config.trans hsound.configured, h.capacity.trans hsound.capacity⟩

/-- As much of what is pending as there is room for. -/
def portion (reader : Reader) : Bytes := reader.pending.take reader.ring.free

def taking (reader : Reader) (ring : Ring) : Reader :=
  { reader with ring, pending := reader.pending.drop reader.ring.free }

theorem exists_push_portion (reader : Reader) :
    ∃ ring, reader.ring.push reader.portion = .ok ring ∧ Feeds reader (reader.taking ring) := by
  obtain ⟨ring, hpush, hlist, hcapacity⟩ :=
    reader.ring.push_fits reader.portion (List.length_take_le _ _)
  exact ⟨ring, hpush, rfl, hcapacity, rfl, hlist, rfl⟩

/-- After a look in vain some of what is pending moves into the queue, and draining goes on. -/
theorem drain_of_push {ring : Ring} (hnone : reader.assemble.1 = .ok none)
    (hpending : reader.pending ≠ []) (hroom : reader.assemble.2.ring.free ≠ 0)
    (hpush : reader.assemble.2.ring.push reader.assemble.2.portion = .ok ring) :
    reader.drain = (reader.assemble.2.taking ring).drain := by
  rw [portion, pending_assemble] at hpush
  rw [drain]
  dsimp only
  rw [hnone]
  dsimp only
  rw [if_neg hpending, if_neg hroom, hpush, taking, pending_assemble]

theorem drain_of_room (hnone : reader.assemble.1 = .ok none) (hpending : reader.pending ≠ [])
    (hroom : reader.assemble.2.ring.free ≠ 0) :
    ∃ fed, Feeds reader.assemble.2 fed ∧ reader.drain = fed.drain := by
  obtain ⟨ring, hpush, hfeeds⟩ := reader.assemble.2.exists_push_portion
  exact ⟨_, hfeeds, drain_of_push hnone hpending hroom hpush⟩

/-- A queue without room for what is pending gives its content up. -/
theorem drain_of_full (hnone : reader.assemble.1 = .ok none) (hpending : reader.pending ≠ [])
    (hfull : reader.assemble.2.ring.free = 0) :
    reader.drain = (.error reader.assemble.2.overflowed.1, reader.assemble.2.overflowed.2) := by
  rw [drain]
  dsimp only
  rw [hnone]
  dsimp only
  rw [if_neg hpending, if_pos hfull]

/-- All that draining can come to: a look that ends it, a queue that is full in vain, or a look in
vain and, with more in the queue, draining again. -/
inductive Drains : Reader → Except FrameError (Option Frame) → Reader → Prop
  | looked {reader : Reader} : (reader.assemble.1 = .ok none → reader.pending = []) →
      Drains reader reader.assemble.1 reader.assemble.2
  | full {reader : Reader} : reader.assemble.1 = .ok none → reader.pending ≠ [] →
      reader.assemble.2.ring.free = 0 →
      Drains reader (.error reader.assemble.2.overflowed.1) reader.assemble.2.overflowed.2
  | fed {reader fed after : Reader} {result : Except FrameError (Option Frame)} :
      reader.assemble.1 = .ok none → reader.pending ≠ [] → reader.assemble.2.ring.free ≠ 0 →
      Feeds reader.assemble.2 fed → Drains fed result after → Drains reader result after

theorem drains_drain (reader : Reader) : Drains reader reader.drain.1 reader.drain.2 := by
  induction hn : reader.pending.length using Nat.strongRecOn generalizing reader with
  | ind n ih =>
      by_cases hstop : reader.assemble.1 = .ok none → reader.pending = []
      · rw [drain_eq_assemble hstop]
        exact .looked hstop
      · obtain ⟨hnone, hpending⟩ := Classical.not_imp.mp hstop
        by_cases hfull : reader.assemble.2.ring.free = 0
        · rw [drain_of_full hnone hpending hfull]
          exact .full hnone hpending hfull
        · obtain ⟨fed, hfeeds, hdrain⟩ := drain_of_room hnone hpending hfull
          have hshorter := hfeeds.length_lt (by rwa [pending_assemble]) hfull
          rw [pending_assemble, hn] at hshorter
          rw [hdrain]
          exact .fed hnone hpending hfull hfeeds (ih _ hshorter fed rfl)

/-- What drains in vain has been fed to the end. -/
theorem Drains.pending_eq_nil {after : Reader} {result : Except FrameError (Option Frame)}
    (h : Drains reader result after) (hnone : result = .ok none) : after.pending = [] := by
  induction h with
  | looked hstop =>
      rw [pending_assemble]
      exact hstop hnone
  | full => cases hnone
  | fed _ _ _ _ _ ih => exact ih hnone

theorem Reports.of_stats {before middle after : Reader} {later : List Outcome}
    {result : Except FrameError (Option Frame)} (hstats : middle.stats = before.stats)
    (h : Reports config Meaning ahead outcomes middle result after later) :
    Reports config Meaning ahead outcomes before result after later :=
  { h with stats := by rw [h.stats, hstats] }

theorem Sound.reports_drains (hvalid : config.validate = .ok ())
    (hfollows : Follows config Meaning) (hsound : Sound config reader) {after : Reader}
    {result : Except FrameError (Option Frame)} (hdrains : Drains reader result after)
    (hmeaning : Meaning (reader.waiting ++ ahead) outcomes) :
    ∃ later, Reports config Meaning ahead outcomes reader result after later ∧
      (result = .ok none → ahead = [] → later = []) := by
  induction hdrains with
  | looked hstop =>
      obtain ⟨later, hreports⟩ := hsound.reports_assemble hfollows hmeaning
      refine ⟨later, hreports, ?_⟩
      rintro hnone rfl
      have hnothing := hsound.quiet_assemble hfollows hmeaning hnone (hstop hnone)
      rw [hreports.said] at hnothing
      exact (List.append_eq_nil_iff.mp hnothing).2
  | full hnone _ hfull => exact absurd hfull (hsound.free_assemble hvalid hnone)
  | fed hnone _ _ hfeeds _ ih =>
      obtain ⟨later, hreports⟩ := hsound.reports_assemble hfollows hmeaning
      rw [hnone] at hreports
      obtain rfl : outcomes = later := hreports.said
      have hfed := hsound.assemble.feeds hfeeds
      obtain ⟨later, hlater, hlast⟩ := ih hfed (hfeeds.waiting ▸ hreports.meaning)
      exact ⟨later, hlater.of_stats (hfeeds.stats.trans hreports.stats), hlast⟩

theorem Sound.reports_drain (hvalid : config.validate = .ok ()) (hfollows : Follows config Meaning)
    (hsound : Sound config reader) (hmeaning : Meaning (reader.waiting ++ ahead) outcomes) :
    ∃ later, Reports config Meaning ahead outcomes reader reader.drain.1 reader.drain.2 later ∧
      (reader.drain.1 = .ok none → reader.drain.2.pending = [] ∧ (ahead = [] → later = [])) := by
  have hdrains := reader.drains_drain
  obtain ⟨later, hreports, hlast⟩ := hsound.reports_drains hvalid hfollows hdrains hmeaning
  exact ⟨later, hreports, fun hnone => ⟨hdrains.pending_eq_nil hnone, hlast hnone⟩⟩

theorem readFrame_of_ne_none {link : Link} (h : reader.drain.1 ≠ .ok none) :
    reader.readFrame link = (reader.drain.1, reader.drain.2, link) := by
  unfold readFrame
  dsimp only
  split
  · next hnone => exact absurd hnone h
  · rfl

theorem readFrame_of_fault {link next : Link} {cause : LinkError}
    (hnone : reader.drain.1 = .ok none)
    (hreceive : link.receive (reader.drain.2.room link.kind) = (.error cause, next)) :
    reader.readFrame link = (.error (.link cause), reader.drain.2, next) := by
  simp only [readFrame, hnone, hreceive]

theorem readFrame_of_silence {link next : Link} (hnone : reader.drain.1 = .ok none)
    (hreceive : link.receive (reader.drain.2.room link.kind) = (.ok [], next)) :
    reader.readFrame link = (.ok none, reader.drain.2, next) := by
  simp only [readFrame, hnone, hreceive]

def holding (reader : Reader) (data : Bytes) : Reader := { reader with pending := data }

theorem Sound.holding (h : Sound config reader) (data : Bytes) :
    Sound config (reader.holding data) := ⟨h.configured, h.capacity⟩

theorem waiting_holding (hpending : reader.pending = []) (data : Bytes) :
    (reader.holding data).waiting = reader.waiting ++ data := by
  rw [waiting, waiting, hpending, List.append_nil]
  rfl

theorem readFrame_of_octets {link next : Link} {data : Bytes} (hnone : reader.drain.1 = .ok none)
    (hdata : data ≠ [])
    (hreceive : link.receive (reader.drain.2.room link.kind) = (.ok data, next)) :
    reader.readFrame link =
      ((reader.drain.2.holding data).drain.1, (reader.drain.2.holding data).drain.2, next) := by
  simp only [readFrame, hnone, hreceive]
  rfl

/-- All that a read can come to: draining that does not end in vain, or one that does and then a
receive, which fails, is silent or yields octets to drain. -/
inductive Attempts (reader : Reader) (link : Link) :
    Except FrameError (Option Frame) × Reader × Link → Prop
  | drained : reader.drain.1 ≠ .ok none →
      Attempts reader link (reader.drain.1, reader.drain.2, link)
  | failed {cause : LinkError} {next : Link} : reader.drain.1 = .ok none →
      link.receive (reader.drain.2.room link.kind) = (.error cause, next) →
      Attempts reader link (.error (.link cause), reader.drain.2, next)
  | silent {next : Link} : reader.drain.1 = .ok none →
      link.receive (reader.drain.2.room link.kind) = (.ok [], next) →
      Attempts reader link (.ok none, reader.drain.2, next)
  | received {data : Bytes} {next : Link} : reader.drain.1 = .ok none → data ≠ [] →
      link.receive (reader.drain.2.room link.kind) = (.ok data, next) →
      Attempts reader link ((reader.drain.2.holding data).drain.1,
        (reader.drain.2.holding data).drain.2, next)

theorem attempts_readFrame (reader : Reader) (link : Link) :
    Attempts reader link (reader.readFrame link) := by
  by_cases hnone : reader.drain.1 = .ok none
  · generalize hreceive : link.receive (reader.drain.2.room link.kind) = receipt
    obtain ⟨received, next⟩ := receipt
    cases received with
    | error cause =>
        rw [readFrame_of_fault hnone hreceive]
        exact .failed hnone hreceive
    | ok data =>
        by_cases hdata : data = []
        · rw [hdata] at hreceive
          rw [readFrame_of_silence hnone hreceive]
          exact .silent hnone hreceive
        · rw [readFrame_of_octets hnone hdata hreceive]
          exact .received hnone hdata hreceive
  · rw [readFrame_of_ne_none hnone]
    exact .drained hnone

/-- A read changes nothing of the link but what is queued. -/
theorem exists_arrivals_readFrame (reader : Reader) (link : Link) :
    ∃ arrivals, (reader.readFrame link).2.2 = { link with arrivals } := by
  have hreceive := link.exists_arrivals_receive (reader.drain.2.room link.kind)
  have hattempts := reader.attempts_readFrame link
  generalize reader.readFrame link = answer at hattempts
  cases hattempts with
  | drained => exact ⟨link.arrivals, rfl⟩
  | failed _ hnext | silent _ hnext | received _ _ hnext =>
      rw [hnext] at hreceive
      exact hreceive

/-- What one read makes of a stream: it reports what the octets say or what the link says, and it
comes closer to the end of both. -/
structure Reads (config : FrameConfig) (Meaning : Bytes → List Outcome → Prop)
    (outcomes : List Outcome) (before : Reader) (link : Link)
    (result : Except FrameError (Option Frame)) (after : Reader) (next : Link)
    (later : List Outcome) : Prop where
  sound : Sound config after
  whole : next.Whole (max config.ringCapacity Link.maxDatagram)
  said : outcomes = verdict result ++ later
  meaning : Meaning (after.waiting ++ next.octets) later
  stats : after.stats = (verdict result).foldl Stats.count before.stats
  faults : link.faults = blame result ++ next.faults
  progress : later.length + next.backlog ≤ outcomes.length + link.backlog - 1
  quiet : result = .ok none → next.octets = [] → later = []

/-- Every datagram of a whole link fits the room that the reader gives it. -/
theorem Sound.whole_room (hsound : Sound config reader) {link : Link}
    (hwhole : link.Whole (max config.ringCapacity Link.maxDatagram)) :
    link.Whole (reader.room link.kind) := by
  refine ⟨hwhole.opened, fun hkind data hdata => ?_⟩
  rw [hkind, room, hsound.configured]
  exact hwhole.fits hkind data hdata

theorem Sound.le_room (hsound : Sound config reader) (kind : LinkKind) :
    config.ringCapacity ≤ reader.room kind := by
  unfold room
  rw [hsound.configured]
  split
  · exact Nat.le_refl _
  · exact Nat.le_max_left _ _

theorem Sound.room_pos (hvalid : config.validate = .ok ()) (hsound : Sound config reader)
    (kind : LinkKind) : 0 < reader.room kind :=
  Nat.lt_of_lt_of_le (FrameConfig.ringCapacity_pos hvalid) (hsound.le_room kind)

/-- A read that finds something in the queue leaves the link alone. -/
theorem Reports.reads {link : Link} {later : List Outcome}
    (h : Reports config Meaning link.octets outcomes reader reader.drain.1 reader.drain.2 later)
    (hwhole : link.Whole (max config.ringCapacity Link.maxDatagram))
    (hsome : reader.drain.1 ≠ .ok none) :
    Reads config Meaning outcomes reader link reader.drain.1 reader.drain.2 link later := by
  have hnew := List.length_pos_iff.mpr (verdict_ne_nil h.innocent hsome)
  have hlength := congrArg List.length h.said
  rw [List.length_append] at hlength
  refine ⟨h.sound, hwhole, h.said, h.meaning, h.stats, ?_, ?_, fun hnone => absurd hnone hsome⟩
  · rw [blame_eq_nil h.innocent]
    rfl
  · omega

theorem Reports.reads_octets (hvalid : config.validate = .ok ()) (hfollows : Follows config Meaning)
    {before : Reader} {link next : Link} {data : Bytes}
    (h : Reports config Meaning link.octets outcomes before (.ok none) reader outcomes)
    (hpending : reader.pending = []) (hnext : next.Whole (max config.ringCapacity Link.maxDatagram))
    (hoctets : link.octets = data ++ next.octets) (hfaults : link.faults = next.faults)
    (hbacklog : next.backlog < link.backlog) :
    ∃ later, Reads config Meaning outcomes before link (reader.holding data).drain.1
      (reader.holding data).drain.2 next later := by
  have hmeaning := h.meaning
  rw [hoctets, ← List.append_assoc, ← waiting_holding hpending] at hmeaning
  obtain ⟨later, hlater, hrest⟩ :=
    (h.sound.holding data).reports_drain hvalid hfollows hmeaning
  have hstats : (reader.holding data).stats = before.stats := h.stats
  have hlength := congrArg List.length hlater.said
  rw [List.length_append] at hlength
  refine ⟨later, hlater.sound, hnext, hlater.said, hlater.meaning, (hlater.of_stats hstats).stats,
    ?_, ?_, fun hnone => (hrest hnone).2⟩
  · rw [blame_eq_nil hlater.innocent]
    exact hfaults
  · omega

/-- One read, by what is in the queue first and by what the link has next. -/
theorem Sound.reads (hvalid : config.validate = .ok ()) (hfollows : Follows config Meaning)
    (hsound : Sound config reader) {link : Link}
    (hwhole : link.Whole (max config.ringCapacity Link.maxDatagram))
    (hmeaning : Meaning (reader.waiting ++ link.octets) outcomes) :
    ∃ later, Reads config Meaning outcomes reader link (reader.readFrame link).1
      (reader.readFrame link).2.1 (reader.readFrame link).2.2 later := by
  obtain ⟨later, hreports, hlast⟩ := hsound.reports_drain hvalid hfollows hmeaning
  by_cases hnone : reader.drain.1 = .ok none
  · obtain ⟨hpending, hquiet⟩ := hlast hnone
    rw [hnone] at hreports
    obtain rfl : outcomes = later := hreports.said
    have hreceives := Link.receives_receive (hreports.sound.room_pos hvalid link.kind)
      (hreports.sound.whole_room hwhole)
    have hnext := hwhole.receive (reader.drain.2.room link.kind)
    generalize hreceive : link.receive (reader.drain.2.room link.kind) = receipt at hreceives hnext
    obtain ⟨received, next⟩ := receipt
    dsimp only at hreceives hnext
    have hmeaning := hreports.meaning
    cases hreceives with
    | silence hoctets hbacklog =>
        obtain rfl : outcomes = [] := hquiet hoctets
        rw [readFrame_of_silence hnone hreceive]
        exact ⟨[], hreports.sound, hwhole, rfl, hmeaning, hreports.stats, rfl,
          by simp [hbacklog], fun _ _ => rfl⟩
    | failure hoctets hfaults hbacklog =>
        rw [hoctets] at hmeaning
        rw [readFrame_of_fault hnone hreceive]
        refine ⟨outcomes, hreports.sound, hnext, rfl, hmeaning, hreports.stats, hfaults, ?_, nofun⟩
        dsimp only
        omega
    | @octets data _ hoctets hfaults hbacklog =>
        by_cases hdata : data = []
        · rw [hdata] at hreceive hoctets
          rw [hoctets] at hmeaning hquiet
          rw [readFrame_of_silence hnone hreceive]
          refine ⟨outcomes, hreports.sound, hnext, rfl, hmeaning, hreports.stats, hfaults, ?_,
            fun _ => hquiet⟩
          dsimp only
          omega
        · rw [readFrame_of_octets hnone hdata hreceive]
          exact hreports.reads_octets hvalid hfollows hpending hnext hoctets hfaults hbacklog
  · rw [readFrame_of_ne_none hnone]
    exact ⟨later, hreports.reads hwhole hnone⟩

end

end Reader
end TopicBridge
