import TopicBridge.Bytes

/-! Stretches of an octet string, from one position up to another. They are taken and written
checked: where a stretch does not lie inside the string there is no outcome at all. -/
namespace TopicBridge.Bytes

def stretch? (s : Bytes) (start stop : Nat) : Option Bytes :=
  if start ≤ stop ∧ stop ≤ s.length then some ((s.take stop).drop start) else none

/-- The string with `data` in place of the octets from `start` up to `stop`, if it is as long. -/
def overwrite? (s : Bytes) (start stop : Nat) (data : Bytes) : Option Bytes :=
  if start ≤ stop ∧ stop ≤ s.length ∧ data.length = stop - start then
    some (s.take start ++ data ++ s.drop stop)
  else none

theorem stretch?_of_le {s : Bytes} {start stop : Nat} (hstart : start ≤ stop)
    (hstop : stop ≤ s.length) : stretch? s start stop = some ((s.take stop).drop start) :=
  if_pos ⟨hstart, hstop⟩

theorem stretch?_zero {s : Bytes} {stop : Nat} (hstop : stop ≤ s.length) :
    stretch? s 0 stop = some (s.take stop) :=
  stretch?_of_le (Nat.zero_le _) hstop

theorem overwrite?_of_le {s data : Bytes} {start stop : Nat} (hstart : start ≤ stop)
    (hstop : stop ≤ s.length) (hdata : data.length = stop - start) :
    overwrite? s start stop data = some (s.take start ++ data ++ s.drop stop) :=
  if_pos ⟨hstart, hstop, hdata⟩

/-- Two stretches from the front on, one right behind the other. -/
theorem overwrite?_twice {s a b : Bytes} {stop : Nat} (hlength : a.length + b.length = stop)
    (hstop : stop ≤ s.length) :
    (do
      let t ← overwrite? s 0 a.length a
      overwrite? t a.length stop b) = some (a ++ b ++ s.drop stop) := by
  have hfront : overwrite? s 0 a.length a = some (a ++ s.drop a.length) :=
    overwrite?_of_le (Nat.zero_le _) (by omega) rfl
  have hback : overwrite? (a ++ s.drop a.length) a.length stop b =
      some (a ++ b ++ s.drop stop) := by
    have hroom : stop ≤ (a ++ s.drop a.length).length := by
      rw [List.length_append, List.length_drop]
      omega
    rw [overwrite?_of_le (by omega) hroom (by omega),
      List.take_left, List.drop_append, List.drop_eq_nil_of_le (by omega), List.nil_append,
      List.drop_drop, Nat.add_sub_cancel' (by omega)]
  rw [hfront]
  exact hback

end TopicBridge.Bytes
