import TopicBridge.Proofs.Reading

/-! Successive reads of one reader on one link. What single reads say of the stream adds up: after
any number of them the outcomes so far and those of the rest are the outcomes of the whole, and
enough reads leave no rest. -/
namespace TopicBridge

structure Session where
  reader : Reader
  link : Link
  results : List (Except FrameError (Option Frame)) := []

namespace Session

def read (session : Session) : Session :=
  let answer := session.reader.readFrame session.link
  { reader := answer.2.1, link := answer.2.2, results := session.results ++ [answer.1] }

def reads (session : Session) : Nat → Session
  | 0 => session
  | n + 1 => (session.reads n).read

def outcomes (session : Session) : List Outcome := session.results.flatMap verdict

def faults (session : Session) : List LinkError := session.results.flatMap blame

/-- The last read found nothing, and no octets are left to receive. -/
def Idle (session : Session) : Prop :=
  session.results.getLast? = some (.ok none) ∧ session.link.octets = []

/-- What every read keeps, for a stream with the given outcomes and failures of which `later` are
still to come. -/
structure Keeps (config : FrameConfig) (Meaning : Bytes → List Outcome → Prop)
    (outcomes : List Outcome) (faults : List LinkError) (session : Session)
    (later : List Outcome) : Prop where
  sound : session.reader.Sound config
  whole : session.link.Whole (max config.ringCapacity Link.maxDatagram)
  said : session.outcomes ++ later = outcomes
  meaning : Meaning (session.reader.waiting ++ session.link.octets) later
  stats : session.reader.stats = session.outcomes.foldl Stats.count {}
  faults : session.faults ++ session.link.faults = faults

section
variable {config : FrameConfig} {Meaning : Bytes → List Outcome → Prop} {session : Session}
  {outcomes later : List Outcome} {faults : List LinkError}

theorem outcomes_read (session : Session) :
    session.read.outcomes =
      session.outcomes ++ verdict (session.reader.readFrame session.link).1 := by
  simp only [Session.outcomes, read, List.flatMap_append, List.flatMap_singleton]

theorem faults_read (session : Session) :
    session.read.faults = session.faults ++ blame (session.reader.readFrame session.link).1 := by
  simp only [Session.faults, read, List.flatMap_append, List.flatMap_singleton]

theorem Idle.result_eq (h : session.read.Idle) :
    (session.reader.readFrame session.link).1 = .ok none := by
  have hlast := h.1
  rw [read, List.getLast?_concat] at hlast
  exact Option.some.inj hlast

theorem Keeps.read (hvalid : config.validate = .ok ()) (hfollows : Follows config Meaning)
    (h : Keeps config Meaning outcomes faults session later) :
    ∃ rest, Keeps config Meaning outcomes faults session.read rest ∧
      rest.length + session.read.link.backlog ≤ later.length + session.link.backlog - 1 ∧
      (session.read.Idle → rest = []) := by
  obtain ⟨rest, hreads⟩ := h.sound.reads hvalid hfollows h.whole h.meaning
  refine ⟨rest, ?_, hreads.progress, fun hidle => hreads.quiet hidle.result_eq hidle.2⟩
  refine ⟨hreads.sound, hreads.whole, ?_, hreads.meaning, ?_, ?_⟩
  · rw [outcomes_read, List.append_assoc, ← hreads.said, h.said]
  · rw [outcomes_read, List.foldl_append, ← h.stats]
    exact hreads.stats
  · rw [faults_read, List.append_assoc, ← h.faults, hreads.faults]
    rfl

theorem Keeps.reads (hvalid : config.validate = .ok ()) (hfollows : Follows config Meaning)
    (h : Keeps config Meaning outcomes faults session later) (n : Nat) :
    ∃ rest, Keeps config Meaning outcomes faults (session.reads n) rest ∧
      rest.length + (session.reads n).link.backlog ≤ later.length + session.link.backlog - n ∧
      (0 < n → (session.reads n).Idle → rest = []) := by
  induction n with
  | zero => exact ⟨later, h, Nat.le_refl _, fun hpos => absurd hpos (Nat.lt_irrefl 0)⟩
  | succ n ih =>
      obtain ⟨middle, hkeeps, hmiddle, -⟩ := ih
      obtain ⟨rest, hrest, hprogress, hidle⟩ := hkeeps.read hvalid hfollows
      refine ⟨rest, hrest, ?_, fun _ => hidle⟩
      rw [Session.reads]
      omega

end

theorem exists_create {config : FrameConfig} (hvalid : config.validate = .ok ()) :
    ∃ reader, Reader.create config = .ok reader ∧ reader.Sound config ∧ reader.waiting = [] ∧
      reader.stats = {} := by
  obtain ⟨ring, hring⟩ := Ring.exists_ofCapacity (FrameConfig.ringCapacity_pos hvalid)
  obtain ⟨hlist, hcapacity⟩ := Ring.toList_ofCapacity hring
  refine ⟨{ config, ring }, ?_, ⟨rfl, hcapacity⟩, ?_, rfl⟩
  · simp only [Reader.create, hvalid, hring]
    rfl
  · rw [Reader.waiting, hlist]
    rfl

/-- A session from its beginning: its outcomes are those of the stream up to some point, and it
gets to the end. -/
theorem keeps_reads {config : FrameConfig} {Meaning : Bytes → List Outcome → Prop}
    (hvalid : config.validate = .ok ()) (hfollows : Follows config Meaning) {reader : Reader}
    (hcreate : Reader.create config = .ok reader) {link : Link}
    (hwhole : link.Whole (max config.ringCapacity Link.maxDatagram)) {outcomes : List Outcome}
    (hmeaning : Meaning link.octets outcomes) (n : Nat) :
    ∃ later, Keeps config Meaning outcomes link.faults (reads { reader, link } n) later ∧
      (outcomes.length + link.backlog ≤ n ∨ (reads { reader, link } n).Idle → later = []) := by
  obtain ⟨fresh, hfresh, hsound, hwaiting, hstats⟩ := exists_create hvalid
  obtain rfl : fresh = reader := Except.ok.inj (hfresh.symm.trans hcreate)
  have hstart : Keeps config Meaning outcomes link.faults { reader := fresh, link } outcomes := by
    refine ⟨hsound, hwhole, rfl, ?_, hstats, rfl⟩
    rw [hwaiting]
    exact hmeaning
  obtain ⟨later, hkeeps, hprogress, hidle⟩ := hstart.reads hvalid hfollows n
  refine ⟨later, hkeeps, ?_⟩
  rintro (hmany | hsilent)
  · apply List.length_eq_zero_iff.mp
    dsimp only at hprogress
    omega
  · apply hidle _ hsilent
    apply Nat.pos_of_ne_zero
    rintro rfl
    cases hsilent.1

end Session
end TopicBridge
