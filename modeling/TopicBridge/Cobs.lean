import TopicBridge.Bytes

/-! Consistent overhead byte stuffing. Stuffed data holds no zero, so a zero can end a
record. A code octet counts itself and the data up to the next zero; the code 0xFF stands for
254 octets and no zero. -/
namespace TopicBridge.Cobs

/-- The data octets of the first block: up to the first zero, at most 254. -/
def block (s : Bytes) : Bytes :=
  (s.take 254).takeWhile (· ≠ 0)

def coded (data : Bytes) : Bytes :=
  UInt8.ofNat (data.length + 1) :: data

/-- Blocks one after the other. A zero ends a block that is not full and is left out; a full block
at the very end has no successor. -/
def blocks (s : Bytes) : Bytes :=
  let data := block s
  let tail := s.drop data.length
  if tail = [] then coded data
  else if data.length = 254 then coded data ++ blocks tail
  else coded data ++ blocks (tail.drop 1)
  termination_by s.length
  decreasing_by
    all_goals
      rename_i htail hfull
      have hlength : 0 < (s.drop (block s).length).length := List.length_pos_iff.mpr htail
      simp only [data, List.length_drop] at hlength hfull ⊢
      omega

/-- Nothing is stuffed to nothing. -/
def stuff (s : Bytes) : Bytes :=
  if s.isEmpty then [] else blocks s

/-- Undoes `stuff` on a record without zeros. A code that reaches past the end of the record
has no reading; at the end of the record the last zero is implied away. -/
def unstuff : Bytes → Option Bytes
  | [] => some []
  | code :: rest =>
      let count := code.toNat - 1
      let data := rest.take count
      let tail := rest.drop count
      if data.length < count then none
      else
        (unstuff tail).map fun more =>
          if code = 0xFF ∨ tail = [] then data ++ more else data ++ 0 :: more
  termination_by s => s.length
  decreasing_by simp only [List.length_drop, List.length_cons]; omega

end TopicBridge.Cobs
