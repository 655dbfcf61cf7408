import TopicBridge.Proofs.Discard
import TopicBridge.Proofs.Reading

/-! The loops of a read, given so many turns. A search for a frame takes at most one turn for each
octet of the queue, and draining at most one for each octet that is pending, so that enough turns
always bring the read to its end. -/
namespace TopicBridge
namespace Frame

def delimitedTurn (capacity maxPayload : Nat) (s : Bytes) : Turn :=
  match Bytes.offsetOf? [delimiter] s with
  | none =>
      .ended (if s.length = capacity then .failed (.payloadTooLarge s.length maxPayload) s.length
        else .waiting 0)
  | some 0 => .passed 1
  | some stop => .ended ⟨(ofStuffed maxPayload (s.take stop)).map some, stop + 1⟩

def turnOf (protocol : Protocol) (capacity maxPayload : Nat) : Bytes → Turn :=
  match protocol with
  | .px4 => turn maxPayload
  | .cobs => delimitedTurn capacity maxPayload

/-- The outcome of a search with these turns, if so many of them are enough. -/
def searchWithin (turn : Bytes → Turn) : Nat → Bytes → Option Look
  | 0, _ => none
  | turns + 1, s =>
      match turn s with
      | .ended look => some look
      | .passed skipped => (searchWithin turn turns (s.drop skipped)).map (Look.after skipped)
      | .short => none

def decodeWithin (protocol : Protocol) (maxPayload turns : Nat) (ring : Ring) :
    Option (Except FrameError (Option Frame) × Ring) :=
  (searchWithin (turnOf protocol ring.capacity maxPayload) turns ring.toList).map fun look =>
    (look.result, ring.skip look.consumed)

section
variable {turn : Bytes → Turn} {capacity maxPayload : Nat} {s : Bytes} {look : Look}

theorem searchWithin_succ {turns : Nat} (h : searchWithin turn turns s = some look) :
    searchWithin turn (turns + 1) s = some look := by
  induction turns generalizing s look with
  | zero => cases h
  | succ turns ih =>
      rw [searchWithin] at h ⊢
      cases hturn : turn s with
      | ended last =>
          rw [hturn] at h
          exact h
      | passed skipped =>
          rw [hturn] at h
          obtain ⟨found, hfound, rfl⟩ := Option.map_eq_some_iff.mp h
          dsimp only
          rw [ih hfound]
          rfl
      | short =>
          rw [hturn] at h
          cases h

theorem searchWithin_of_le {turns more : Nat} (hle : turns ≤ more)
    (h : searchWithin turn turns s = some look) : searchWithin turn more s = some look := by
  induction hle with
  | refl => exact h
  | step _ ih => exact searchWithin_succ ih

theorem searchWithin_turn (maxPayload turns : Nat) (s : Bytes) :
    searchWithin (Frame.turn maxPayload) turns s = seekWithin maxPayload turns s := by
  induction turns generalizing s with
  | zero => rfl
  | succ turns ih =>
      rw [searchWithin, seekWithin]
      cases Frame.turn maxPayload s with
      | ended look => rfl
      | passed skipped => exact congrArg (Option.map (Look.after skipped)) (ih (s.drop skipped))
      | short => rfl

theorem offsetOf?_delimiter {front : Bytes} (hclean : 0 ∉ front) (rest : Bytes) :
    Bytes.offsetOf? [delimiter] (front ++ 0 :: rest) = some front.length := by
  have hne : ([delimiter] : Bytes) ≠ [] := List.cons_ne_nil _ _
  induction front with
  | nil =>
      rw [List.nil_append, Bytes.offsetOf?_cons hne]
      exact if_pos ⟨rest, rfl⟩
  | cons b front ih =>
      rw [List.mem_cons, not_or] at hclean
      have hhere : ¬ [delimiter] <+: b :: (front ++ 0 :: rest) := by
        rintro ⟨tail, htail⟩
        exact hclean.1 (List.cons.inj htail).1
      rw [List.cons_append, Bytes.offsetOf?_cons hne, if_neg hhere, ih hclean.2]
      rfl

theorem offsetOf?_delimiter_none (hclean : 0 ∉ s) : Bytes.offsetOf? [delimiter] s = none := by
  apply (Bytes.offsetOf?_eq_none_iff (List.cons_ne_nil _ _)).mpr
  intro hdelimiter
  exact hclean (hdelimiter.subset List.mem_cons_self)

theorem delimitedTurn_clean (hcapacity : 0 < capacity) (hclean : 0 ∉ s) :
    delimitedTurn capacity maxPayload s = .ended (lookDelimited capacity maxPayload s) := by
  rw [delimitedTurn, offsetOf?_delimiter_none hclean]
  dsimp only
  by_cases hfull : s.length = capacity
  · have hne : s ≠ [] := by
      rintro rfl
      exact Nat.ne_of_gt hcapacity hfull.symm
    rw [if_pos hfull, lookDelimited_full hne hclean hfull, hfull]
  · rw [if_neg hfull, lookDelimited_open hclean hfull]

theorem delimitedTurn_zero (rest : Bytes) :
    delimitedTurn capacity maxPayload (0 :: rest) = .passed 1 := by
  have hfirst : Bytes.offsetOf? [delimiter] (0 :: rest) = some 0 :=
    offsetOf?_delimiter List.not_mem_nil rest
  rw [delimitedTurn, hfirst]
  rfl

theorem delimitedTurn_record {stuffed : Bytes} (hne : stuffed ≠ []) (hclean : 0 ∉ stuffed)
    (rest : Bytes) :
    delimitedTurn capacity maxPayload (stuffed ++ 0 :: rest) =
      .ended (lookDelimited capacity maxPayload (stuffed ++ 0 :: rest)) := by
  have hstop := offsetOf?_delimiter hclean rest
  have htake : (stuffed ++ 0 :: rest).take stuffed.length = stuffed := List.take_left
  rw [lookDelimited_record hne hclean, delimitedTurn, hstop]
  cases stuffed with
  | nil => exact absurd rfl hne
  | cons b stuffed =>
      exact congrArg (fun record =>
        Turn.ended ⟨(ofStuffed maxPayload record).map some, stuffed.length + 1 + 1⟩) htake

/-- A turn passes one zero or ends the search. -/
theorem searchWithin_delimitedTurn (hcapacity : 0 < capacity) {turns : Nat}
    (hturns : s.length < turns) :
    searchWithin (delimitedTurn capacity maxPayload) turns s =
      some (lookDelimited capacity maxPayload s) := by
  induction s generalizing turns with
  | nil =>
      obtain ⟨turns, rfl⟩ := Nat.exists_eq_add_one.mpr hturns
      rw [searchWithin, delimitedTurn_clean hcapacity List.not_mem_nil]
  | cons b rest ih =>
      obtain ⟨turns, rfl⟩ := Nat.exists_eq_add_one.mpr (Nat.zero_lt_of_lt hturns)
      rw [searchWithin]
      by_cases hzero : 0 ∈ b :: rest
      · obtain ⟨stuffed, following, hsplit, hclean⟩ := List.eq_append_cons_of_mem hzero
        cases stuffed with
        | nil =>
            obtain ⟨rfl, rfl⟩ := List.cons.inj hsplit
            rw [delimitedTurn_zero, lookDelimited_zero]
            dsimp only
            rw [List.drop_succ_cons, List.drop_zero, ih (Nat.lt_of_succ_lt_succ hturns)]
            rfl
        | cons c stuffed =>
            rw [hsplit, delimitedTurn_record (List.cons_ne_nil _ _) hclean]
      · rw [delimitedTurn_clean hcapacity hzero]

theorem searchWithin_turnOf (protocol : Protocol) (hcapacity : 0 < capacity) {turns : Nat}
    (hturns : s.length + 2 ≤ turns) :
    searchWithin (turnOf protocol capacity maxPayload) turns s =
      some (Frame.look protocol capacity maxPayload s) := by
  cases protocol with
  | px4 =>
      have htwo := seekWithin_two maxPayload s
      rw [← searchWithin_turn] at htwo
      exact searchWithin_of_le (by omega) htwo
  | cobs => exact searchWithin_delimitedTurn hcapacity (by omega)

end

theorem decodeWithin_eq (protocol : Protocol) (maxPayload : Nat) {ring : Ring} {turns : Nat}
    (hturns : ring.capacity + 2 ≤ turns) :
    decodeWithin protocol maxPayload turns ring = some (decode protocol maxPayload ring) := by
  have hcapacity : 0 < ring.capacity := Nat.zero_lt_of_lt ring.head_lt
  have hlength : ring.toList.length ≤ ring.capacity := by
    rw [Ring.length_toList]
    exact ring.length_le
  rw [decodeWithin, searchWithin_turnOf protocol hcapacity (by omega)]
  rfl

end Frame

namespace Reader

/-- What a look makes of the reader. -/
def booked (reader : Reader) (decoded : Except FrameError (Option Frame) × Ring) :
    Except FrameError (Option Frame) × Reader :=
  let looked := { reader with ring := decoded.2 }
  (decoded.1,
   match decoded.1 with
   | .ok (some frame) => { looked with stats := looked.stats.frame frame.payload.length }
   | .ok none => looked
   | .error _ => { looked with stats := looked.stats.drop })

def assembleWithin (turns : Nat) (reader : Reader) :
    Option (Except FrameError (Option Frame) × Reader) :=
  (Frame.decodeWithin reader.config.protocol reader.maxPayload turns reader.ring).map reader.booked

/-- Draining within so many turns, each with a search of at most `turns` turns. -/
def drainWithin (turns : Nat) :
    Nat → Reader → Option (Except FrameError (Option Frame) × Reader)
  | 0, _ => none
  | more + 1, reader =>
      match reader.assembleWithin turns with
      | none => none
      | some (.ok none, looked) =>
          if looked.pending = [] then some (.ok none, looked)
          else if looked.ring.free = 0 then some (.error looked.overflowed.1, looked.overflowed.2)
          else
            match looked.ring.push looked.portion with
            | .error cause => some (.error (.link cause), looked)
            | .ok ring => drainWithin turns more (looked.taking ring)
      | some answer => some answer

def readWithin (turns : Nat) (reader : Reader) (link : Link) :
    Option (Except FrameError (Option Frame) × Reader × Link) :=
  match drainWithin turns turns reader with
  | none => none
  | some (.ok none, drained) =>
      match link.receive (drained.room link.kind) with
      | (.error cause, next) => some (.error (.link cause), drained, next)
      | (.ok [], next) => some (.ok none, drained, next)
      | (.ok data, next) =>
          (drainWithin turns turns (drained.holding data)).map fun fed => (fed.1, fed.2, next)
  | some (result, drained) => some (result, drained, link)

section
variable {reader : Reader} {turns : Nat}

theorem assembleWithin_eq (hturns : reader.ring.capacity + 2 ≤ turns) :
    reader.assembleWithin turns = some reader.assemble := by
  rw [assembleWithin, Frame.decodeWithin_eq _ _ hturns]
  rfl

theorem capacity_assemble (reader : Reader) :
    reader.assemble.2.ring.capacity = reader.ring.capacity := by
  rw [ring_assemble, Frame.capacity_decode]

/-- A turn that does not end the draining feeds at least one octet of what is pending. -/
theorem drainWithin_eq (hturns : reader.ring.capacity + 2 ≤ turns) {more : Nat}
    (hmore : reader.pending.length < more) :
    drainWithin turns more reader = some reader.drain := by
  induction more generalizing reader with
  | zero => exact absurd hmore (Nat.not_lt_zero _)
  | succ more ih =>
      rw [drainWithin, assembleWithin_eq hturns]
      by_cases hstop : reader.assemble.1 = .ok none → reader.pending = []
      · rw [drain_eq_assemble hstop]
        rw [← pending_assemble] at hstop
        generalize reader.assemble = answer at hstop ⊢
        obtain ⟨result, looked⟩ := answer
        cases result with
        | error cause => rfl
        | ok found =>
            cases found with
            | none => exact if_pos (hstop rfl)
            | some frame => rfl
      · obtain ⟨hnone, hpending⟩ := Classical.not_imp.mp hstop
        have hanswer : reader.assemble = (.ok none, reader.assemble.2) := Prod.ext hnone rfl
        rw [hanswer]
        dsimp only
        rw [if_neg (by rwa [pending_assemble])]
        by_cases hfull : reader.assemble.2.ring.free = 0
        · rw [if_pos hfull, drain_of_full hnone hpending hfull]
        · obtain ⟨ring, hpush, hfeeds⟩ := reader.assemble.2.exists_push_portion
          have hshorter := hfeeds.length_lt (by rwa [pending_assemble]) hfull
          have hcapacity := hfeeds.capacity
          rw [pending_assemble] at hshorter
          rw [capacity_assemble] at hcapacity
          rw [if_neg hfull, hpush, drain_of_push hnone hpending hfull hpush]
          exact ih (by omega) (by omega)

def intake (reader : Reader) (link : Link) : Bytes :=
  if reader.drain.1 = .ok none then
    Link.yielded (link.receive (reader.drain.2.room link.kind)).1
  else []

theorem Drains.capacity {after : Reader} {result : Except FrameError (Option Frame)}
    (h : Drains reader result after) : after.ring.capacity = reader.ring.capacity := by
  induction h with
  | looked => exact capacity_assemble _
  | full => exact capacity_assemble _
  | fed _ _ _ hfeeds _ ih => rw [ih, hfeeds.capacity, capacity_assemble]

/-- A read is over within a number of turns that only the queue and the octets at hand decide. -/
theorem readWithin_eq {link : Link}
    (hturns : reader.ring.capacity + reader.pending.length + (reader.intake link).length + 2 ≤
      turns) :
    readWithin turns reader link = some (reader.readFrame link) := by
  have hcapacity := reader.drains_drain.capacity
  have hattempts := reader.attempts_readFrame link
  rw [intake] at hturns
  rw [readWithin, drainWithin_eq (by omega) (by omega)]
  generalize reader.readFrame link = answer at hattempts ⊢
  cases hattempts with
  | drained hsome =>
      generalize reader.drain = answer at hsome ⊢
      obtain ⟨result, drained⟩ := answer
      cases result with
      | error cause => rfl
      | ok found =>
          cases found with
          | none => exact absurd rfl hsome
          | some frame => rfl
  | failed hnone hreceive | silent hnone hreceive =>
      rw [show reader.drain = (.ok none, reader.drain.2) from Prod.ext hnone rfl]
      dsimp only
      rw [hreceive]
  | @received data _ hnone hdata hreceive =>
      rw [if_pos hnone, hreceive, Link.yielded] at hturns
      have hfed : drainWithin turns turns (reader.drain.2.holding data) =
          some (reader.drain.2.holding data).drain := by
        apply drainWithin_eq
        · show reader.drain.2.ring.capacity + 2 ≤ turns
          omega
        · show data.length < turns
          omega
      rw [show reader.drain = (.ok none, reader.drain.2) from Prod.ext hnone rfl]
      dsimp only
      rw [hreceive]
      cases data with
      | nil => exact absurd rfl hdata
      | cons b rest =>
          dsimp only
          rw [hfed]
          rfl

end
end Reader
end TopicBridge
