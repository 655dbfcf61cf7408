import Mathlib.Order.Bounds.Basic
import TopicBridge.Proofs.Provenance
import TopicBridge.Writer

/-! The largest payload. It is the greatest size that the limits and the queue allow, and the search
that finds it is a loop on words of 64 bits in which nothing wraps. -/
namespace TopicBridge

namespace Protocol

def headerWord : Protocol → UInt64
  | .px4 => 9
  | .cobs => 6

def maxWireWord (protocol : Protocol) (payload : UInt64) : UInt64 :=
  let length := protocol.headerWord + payload
  match protocol with
  | .px4 => length
  | .cobs => length + length / 254 + 1 + 1

theorem toNat_headerWord (protocol : Protocol) :
    protocol.headerWord.toNat = protocol.headerLength := by
  cases protocol <;> rfl

/-- No sum on the way to the bound wraps. -/
theorem toNat_maxWireWord (protocol : Protocol) {payload : UInt64}
    (h : payload.toNat ≤ FrameConfig.maxLength) :
    (protocol.maxWireWord payload).toNat = protocol.maxWireLength payload.toNat := by
  have hmax : FrameConfig.maxLength = 65535 := rfl
  cases protocol with
  | px4 =>
      simp only [maxWireWord, headerWord, maxWireLength, headerLength, UInt64.toNat_add,
        UInt64.reduceToNat]
      omega
  | cobs =>
      simp only [maxWireWord, headerWord, maxWireLength, stuffedMax, headerLength, UInt64.toNat_add,
        UInt64.toNat_div, UInt64.reduceToNat]
      omega

theorem headerLength_add_le (protocol : Protocol) (size : Nat) :
    protocol.headerLength + size ≤ protocol.maxWireLength size := by
  cases protocol <;> simp only [headerLength, maxWireLength, stuffedMax] <;> omega

/-- So many turns of the search lead from one size to the size at which it ends. A size other than
zero that the queue may not hold is made one smaller. -/
inductive Searches (protocol : Protocol) (capacity : UInt64) : Nat → UInt64 → UInt64 → Prop
  | ended {size : UInt64} : ¬ (0 < size ∧ capacity < protocol.maxWireWord size) →
      Searches protocol capacity 0 size size
  | smaller {turns : Nat} {size last : UInt64} : 0 < size → capacity < protocol.maxWireWord size →
      Searches protocol capacity turns (size - 1) last →
      Searches protocol capacity (turns + 1) size last

def searchStart (protocol : Protocol) (maxPayload capacity : UInt64) : UInt64 :=
  min (min maxPayload (capacity - min capacity protocol.headerWord)) 65535

section
variable {protocol : Protocol} {maxPayload capacity size : UInt64}

theorem toNat_searchStart (protocol : Protocol) (maxPayload capacity : UInt64) :
    (protocol.searchStart maxPayload capacity).toNat =
      min (min maxPayload.toNat (capacity.toNat - protocol.headerLength))
        FrameConfig.maxLength := by
  have hmin : (min capacity protocol.headerWord).toNat =
      min capacity.toNat protocol.headerLength := by
    rw [UInt64.toNat_min, toNat_headerWord]
  have hroom : (capacity - min capacity protocol.headerWord).toNat =
      capacity.toNat - protocol.headerLength := by
    have hle : min capacity protocol.headerWord ≤ capacity := by
      rw [UInt64.le_iff_toNat_le, hmin]
      exact Nat.min_le_left _ _
    rw [UInt64.toNat_sub_of_le _ _ hle, hmin]
    omega
  rw [searchStart, UInt64.toNat_min, UInt64.toNat_min, hroom]
  rfl

/-- The search ends, and it finds what the recursion on sizes finds. -/
theorem exists_searches (h : size.toNat ≤ FrameConfig.maxLength) :
    ∃ turns last, turns ≤ size.toNat ∧ Searches protocol capacity turns size last ∧
      last.toNat = FrameConfig.fitting protocol capacity.toNat size.toNat := by
  induction hn : size.toNat generalizing size with
  | zero =>
      have hzero : size = 0 := UInt64.toNat_inj.mp hn
      refine ⟨0, size, Nat.le_refl 0, .ended ?_, hn⟩
      rintro ⟨hpos, -⟩
      simp [hzero] at hpos
  | succ n ih =>
      have hpos : 0 < size := by
        rw [UInt64.lt_iff_toNat_lt, hn]
        exact Nat.succ_pos n
      have hlong : capacity < protocol.maxWireWord size ↔
          capacity.toNat < protocol.maxWireLength (n + 1) := by
        rw [UInt64.lt_iff_toNat_lt, toNat_maxWireWord protocol h, hn]
      rw [FrameConfig.fitting]
      by_cases hsize : capacity < protocol.maxWireWord size
      · have hone : 1 ≤ size := by
          rw [UInt64.le_iff_toNat_le, hn]
          exact Nat.succ_pos n
        have hpred : (size - 1).toNat = n := by
          rw [UInt64.toNat_sub_of_le _ _ hone, hn]
          rfl
        obtain ⟨turns, last, hturns, hsearches, hlast⟩ := ih (by omega) hpred
        rw [if_pos (hlong.mp hsize)]
        exact ⟨turns + 1, last, Nat.succ_le_succ hturns, .smaller hpos hsize hsearches, hlast⟩
      · rw [if_neg (hsize ∘ hlong.mpr)]
        exact ⟨0, size, Nat.zero_le _, .ended fun hend => hsize hend.2, hn⟩

end
end Protocol

namespace FrameConfig
variable {protocol : Protocol} {capacity size : Nat} {config : FrameConfig}

/-- Within the limits, and with room in the queue for its longest encoding. -/
def Holds (config : FrameConfig) (size : Nat) : Prop :=
  size ≤ min config.maxPayload maxLength ∧ config.protocol.maxWireLength size ≤ config.ringCapacity

theorem le_fitting (h : protocol.maxWireLength size ≤ capacity) {start : Nat} (hle : size ≤ start) :
    size ≤ fitting protocol capacity start := by
  fun_induction fitting protocol capacity start with
  | case1 => exact hle
  | case2 start hlong ih =>
      have hne : size ≠ start + 1 := by
        rintro rfl
        exact Nat.not_lt.mpr h hlong
      exact ih (by omega)
  | case3 start _ => exact hle

theorem fitting_eq_zero (h : capacity < protocol.maxWireLength 0) (start : Nat) :
    fitting protocol capacity start = 0 := by
  fun_induction fitting protocol capacity start with
  | case1 => rfl
  | case2 start _ ih => exact ih
  | case3 start hfits =>
      have hmono := protocol.maxWireLength_mono (Nat.zero_le (start + 1))
      omega

theorem Holds.le_start (h : config.Holds size) :
    size ≤ min (min config.maxPayload (config.ringCapacity - config.protocol.headerLength))
      maxLength := by
  obtain ⟨hlimits, hqueue⟩ := h
  have hheader := config.protocol.headerLength_add_le size
  omega

/-- The greatest size that a configuration holds, or zero if it does not even hold that. -/
theorem effectiveMaxPayload_spec (config : FrameConfig) :
    IsGreatest { size | config.Holds size } config.effectiveMaxPayload ∨
      config.effectiveMaxPayload = 0 ∧ ∀ size, ¬ config.Holds size := by
  by_cases hzero : config.protocol.maxWireLength 0 ≤ config.ringCapacity
  · have hle := fitting_le config.protocol config.ringCapacity
      (min (min config.maxPayload (config.ringCapacity - config.protocol.headerLength)) maxLength)
    have hlimits : config.effectiveMaxPayload ≤ min config.maxPayload maxLength := by
      rw [effectiveMaxPayload]
      omega
    refine .inl ⟨⟨hlimits, maxWireLength_fitting_le hzero _⟩, ?_⟩
    intro size hholds
    exact le_fitting hholds.2 hholds.le_start
  · refine .inr ⟨fitting_eq_zero (Nat.lt_of_not_le hzero) _, ?_⟩
    rintro size ⟨-, hqueue⟩
    exact hzero (Nat.le_trans (config.protocol.maxWireLength_mono (Nat.zero_le size)) hqueue)

theorem one_le_effectiveMaxPayload (h : config.validate = .ok ()) :
    1 ≤ config.effectiveMaxPayload := by
  have hqueue := maxWireLength_le_of_validate h
  have hpayload : config.maxPayload ≠ 0 := by
    intro hzero
    simp [validate, Nat.not_lt.mpr hqueue, hzero] at h
  have hholds : config.Holds 1 := by
    refine ⟨?_, hqueue⟩
    have hmax : maxLength = 65535 := rfl
    omega
  rcases config.effectiveMaxPayload_spec with hgreatest | ⟨-, hnone⟩
  · exact hgreatest.2 hholds
  · exact absurd hholds (hnone 1)

theorem exists_search {maxPayload capacity : UInt64}
    (hpayload : maxPayload.toNat = config.maxPayload)
    (hcapacity : capacity.toNat = config.ringCapacity) :
    ∃ turns last, turns ≤ maxLength ∧
      config.protocol.Searches capacity turns (config.protocol.searchStart maxPayload capacity)
        last ∧
      last.toNat = config.effectiveMaxPayload := by
  have hstart := config.protocol.toNat_searchStart maxPayload capacity
  have hle : (config.protocol.searchStart maxPayload capacity).toNat ≤ maxLength := by
    rw [hstart]
    exact Nat.min_le_right _ _
  obtain ⟨turns, last, hturns, hsearches, hlast⟩ := Protocol.exists_searches hle
  refine ⟨turns, last, Nat.le_trans hturns hle, hsearches, ?_⟩
  rw [hlast, hstart, hpayload, hcapacity, effectiveMaxPayload]

end FrameConfig

theorem Writer.length_le_of_write {writer : Writer} {link : Link} {topic : UInt8} {payload : Bytes}
    (h : ∀ size max, (writer.write link topic payload).1 ≠ .error (.payloadTooLarge size max)) :
    payload.length ≤ writer.maxPayload := by
  apply Nat.le_of_not_lt
  intro hlong
  rw [write, if_pos hlong] at h
  exact h _ _ rfl

namespace Reader
variable {reader after : Reader} {result : Except FrameError (Option Frame)} {frame : Frame}

theorem Drains.length_le (h : Drains reader result after) (hframe : result = .ok (some frame)) :
    frame.payload.length ≤ reader.maxPayload := by
  induction h with
  | looked => exact (Frame.decode_sound hframe).1
  | full => cases hframe
  | @fed reader fed _ _ _ _ _ hfeeds _ ih =>
      have hconfig : fed.config = reader.config := hfeeds.config.trans (config_assemble reader)
      rw [maxPayload, ← hconfig]
      exact ih hframe

theorem length_le_of_readFrame {link : Link} (h : (reader.readFrame link).1 = .ok (some frame)) :
    frame.payload.length ≤ reader.maxPayload := by
  have hconfig : reader.drain.2.config = reader.config := reader.drains_drain.uses.config
  have hattempts := reader.attempts_readFrame link
  generalize reader.readFrame link = answer at h hattempts
  cases hattempts with
  | drained => exact reader.drains_drain.length_le h
  | failed => cases h
  | silent => cases h
  | @received data =>
      rw [maxPayload, ← hconfig]
      exact (reader.drain.2.holding data).drains_drain.length_le h

end Reader

/-- How large frames get. A payload that the length field can hold is encoded into at most as many
octets as the bound says, and delimited octets have one zero, the last. The search for the largest
payload ends, wraps nowhere, and finds the greatest size within the limits whose bound the queue
holds, or zero. With a usable configuration that is at least one, and all that its writers accept
and its readers deliver encodes into the queue. -/
theorem framing_bounds :
    (∀ (protocol : Protocol) (frame : Frame), frame.payload.length ≤ FrameConfig.maxLength →
      ∀ buffer, ∃ octets,
        Frame.encodeOnto protocol frame buffer = (.ok (), buffer ++ octets) ∧
        octets.length ≤ protocol.maxWireLength frame.payload.length ∧
        (protocol = .cobs → ∃ stuffed, octets = stuffed ++ [0] ∧ 0 ∉ stuffed)) ∧
    (∀ config : FrameConfig,
      (IsGreatest { size | config.Holds size } config.effectiveMaxPayload ∨
        config.effectiveMaxPayload = 0 ∧ ∀ size, ¬ config.Holds size) ∧
      ∀ maxPayload capacity : UInt64, maxPayload.toNat = config.maxPayload →
        capacity.toNat = config.ringCapacity →
        ∃ turns last, turns ≤ FrameConfig.maxLength ∧
          config.protocol.Searches capacity turns (config.protocol.searchStart maxPayload capacity)
            last ∧
          last.toNat = config.effectiveMaxPayload) ∧
    ∀ config : FrameConfig, config.validate = .ok () →
      1 ≤ config.effectiveMaxPayload ∧
      (∀ (writer : Writer) link topic payload, writer.config = config →
        (∀ size max, (writer.write link topic payload).1 ≠ .error (.payloadTooLarge size max)) →
        ∀ seq, (Frame.wire config.protocol ⟨topic, seq, payload⟩).length ≤ config.ringCapacity) ∧
      ∀ (reader : Reader) link frame, reader.config = config →
        (reader.readFrame link).1 = .ok (some frame) →
        (frame.wire config.protocol).length ≤ config.ringCapacity := by
  refine ⟨fun protocol frame hfield buffer => ?_, fun config => ?_, fun config hvalid => ?_⟩
  · refine ⟨_, Frame.encodeOnto_of_le hfield buffer, frame.length_wire_le protocol, ?_⟩
    rintro rfl
    exact ⟨_, rfl, Cobs.zero_not_mem_stuff _⟩
  · refine ⟨config.effectiveMaxPayload_spec, ?_⟩
    intro maxPayload capacity hpayload hcapacity
    exact FrameConfig.exists_search hpayload hcapacity
  · refine ⟨FrameConfig.one_le_effectiveMaxPayload hvalid, ?_, ?_⟩
    · rintro writer link topic payload rfl hfits seq
      exact FrameConfig.length_wire_le_ringCapacity hvalid (Writer.length_le_of_write hfits)
    · rintro reader link frame rfl hframe
      exact FrameConfig.length_wire_le_ringCapacity hvalid (Reader.length_le_of_readFrame hframe)

/-- A record with a zero in it and a full block, a search of two turns, and both ends of a link with
a queue of that size. -/
theorem framing_bounds_stuffed :
    (∃ octets, Frame.encodeOnto .cobs ⟨7, 0, List.replicate 254 1⟩ [9] = (.ok (), 9 :: octets) ∧
      octets.length ≤ 263 ∧ ∃ stuffed, octets = stuffed ++ [0] ∧ 0 ∉ stuffed) ∧
    (∃ turns last, Protocol.cobs.Searches 64 turns 58 last ∧ last.toNat = 56) ∧
    1 ≤ FrameConfig.effectiveMaxPayload { protocol := .cobs, ringCapacity := 64 } ∧
    (Frame.wire .cobs ⟨7, 0, List.replicate 56 1⟩).length ≤ 64 ∧
    (Frame.wire .cobs ⟨7, 2, []⟩).length ≤ 64 := by
  obtain ⟨hencode, hsearch, hsizes⟩ := framing_bounds
  have hvalid : FrameConfig.validate { protocol := .cobs, ringCapacity := 64 } = .ok () := by decide
  obtain ⟨hone, hwriter, hreader⟩ := hsizes _ hvalid
  refine ⟨?_, ?_, hone, ?_, ?_⟩
  · have hfield : (List.replicate 254 (1 : UInt8)).length ≤ FrameConfig.maxLength := by
      rw [List.length_replicate]
      decide
    obtain ⟨octets, honto, hlength, hzero⟩ :=
      hencode .cobs ⟨7, 0, List.replicate 254 1⟩ hfield [9]
    rw [List.length_replicate] at hlength
    exact ⟨octets, honto, hlength, hzero rfl⟩
  · obtain ⟨turns, last, -, hsearches, hlast⟩ :=
      (hsearch { protocol := .cobs, ringCapacity := 64 }).2 1024 64 rfl rfl
    exact ⟨turns, last, hsearches, by rw [hlast]; decide⟩
  · apply hwriter { config := { protocol := .cobs, ringCapacity := 64 } } .stream 7 _ rfl
    intro size max
    have hwritten : (Writer.write { config := { protocol := .cobs, ringCapacity := 64 } } .stream 7
        (List.replicate 56 1)).1 = .ok 56 := by decide +kernel
    rw [hwritten]
    nofun
  · exact hreader { config := { protocol := .cobs, ringCapacity := 64 }, ring := .delimiting }
      .stream _ rfl (by decide +kernel)

end TopicBridge
