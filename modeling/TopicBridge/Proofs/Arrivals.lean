import TopicBridge.Link

/-! What stands queued on a link, as one stream of octets and one list of failures. A receive on
an open link takes from the front of one of them and loses nothing, provided that no datagram is
larger than the room it is read into. -/
namespace TopicBridge

namespace Arrival

def octets : Arrival → Bytes
  | .chunk data => data
  | .fault _ => []

def faults : Arrival → List LinkError
  | .chunk _ => []
  | .fault cause => [cause]

end Arrival

namespace Link

/-- The octets queued, whatever chunks they come in. -/
def octets (link : Link) : Bytes := link.arrivals.flatMap Arrival.octets

def faults (link : Link) : List LinkError := link.arrivals.flatMap Arrival.faults

/-- An open link none of whose datagrams is larger than `room`. -/
structure Whole (link : Link) (room : Nat) : Prop where
  opened : link.closed = false
  fits : link.kind = .datagram → ∀ data, .chunk data ∈ link.arrivals → data.length ≤ room

section
variable {kind : LinkKind} {room : Nat} {data : Bytes}

theorem take_append_leftover (hfits : kind = .datagram → data.length ≤ room) :
    data.take room ++ (leftover kind room data).flatMap Arrival.octets = data := by
  cases kind with
  | datagram => simp [leftover, List.take_of_length_le (hfits rfl)]
  | stream =>
      by_cases hshort : data.length ≤ room
      · simp [leftover, hshort, List.take_of_length_le hshort]
      · simp [leftover, hshort, Arrival.octets]

theorem leftover_nil (kind : LinkKind) (room : Nat) : leftover kind room [] = [] := by
  cases kind <;> rfl

@[simp] theorem faults_leftover : (leftover kind room data).flatMap Arrival.faults = [] := by
  cases kind with
  | datagram => rfl
  | stream =>
      rw [leftover]
      split <;> rfl

theorem weight_leftover (hroom : 0 < room) (rest : List Arrival) :
    (leftover kind room data ++ rest).foldr (fun arrival n => arrival.weight + n) 0 <
      2 * data.length + 1 + rest.foldr (fun arrival n => arrival.weight + n) 0 := by
  cases kind with
  | datagram =>
      rw [leftover, List.nil_append]
      omega
  | stream =>
      rw [leftover]
      split
      · rw [List.nil_append]
        omega
      · rw [List.singleton_append, List.foldr_cons, Arrival.weight, List.length_drop]
        omega

end

/-- All that a receive can come to, on any link. -/
inductive Meets (link : Link) (room : Nat) : Except LinkError Bytes × Link → Prop
  | closed : link.closed = true → Meets link room (.error .closed, link)
  | nothing : link.closed = false → link.arrivals = [] → Meets link room (.ok [], link)
  | fault {cause : LinkError} {rest : List Arrival} : link.closed = false →
      link.arrivals = .fault cause :: rest →
      Meets link room (.error cause, { link with arrivals := rest })
  | chunk {data : Bytes} {rest : List Arrival} : link.closed = false →
      link.arrivals = .chunk data :: rest →
      Meets link room
        (.ok (data.take room), { link with arrivals := leftover link.kind room data ++ rest })

theorem meets_receive (link : Link) (room : Nat) : link.Meets room (link.receive room) := by
  cases hclosed : link.closed with
  | true =>
      rw [receive, if_pos hclosed]
      exact .closed hclosed
  | false =>
      rw [receive, if_neg (by simp [hclosed])]
      split
      · next hnone => exact .nothing hclosed hnone
      · next hfault => exact .fault hclosed hfault
      · next hchunk => exact .chunk hclosed hchunk

/-- Silence, a failure or octets, each taken from the front of what is queued. -/
inductive Receives (link : Link) : Except LinkError Bytes → Link → Prop
  | silence : link.octets = [] → link.backlog = 0 → Receives link (.ok []) link
  | failure {cause : LinkError} {next : Link} : link.octets = next.octets →
      link.faults = cause :: next.faults → next.backlog < link.backlog →
      Receives link (.error cause) next
  | octets {data : Bytes} {next : Link} : link.octets = data ++ next.octets →
      link.faults = next.faults → next.backlog < link.backlog → Receives link (.ok data) next

/-- A receive into some room, for a link whose datagrams all fit there. -/
theorem receives_receive {link : Link} {room : Nat} (hroom : 0 < room) (hwhole : link.Whole room) :
    Receives link (link.receive room).1 (link.receive room).2 := by
  have hmeets := link.meets_receive room
  generalize link.receive room = receipt at hmeets ⊢
  cases hmeets with
  | closed hclosed =>
      rw [hwhole.opened] at hclosed
      cases hclosed
  | nothing _ hnone =>
      exact .silence (by rw [octets, hnone]; rfl) (by rw [backlog, hnone]; rfl)
  | fault _ hfault =>
      refine .failure ?_ ?_ ?_
      · rw [octets, hfault]
        rfl
      · rw [faults, hfault]
        rfl
      · simp only [backlog, hfault, List.foldr_cons, Arrival.weight]
        omega
  | @chunk data rest _ hchunk =>
      have hfits : link.kind = .datagram → data.length ≤ room := by
        intro hkind
        exact hwhole.fits hkind data (hchunk ▸ List.mem_cons_self)
      refine .octets ?_ ?_ ?_
      · simp only [octets, hchunk, List.flatMap_cons, List.flatMap_append, ← List.append_assoc,
          take_append_leftover hfits]
        rfl
      · simp only [faults, hchunk, List.flatMap_cons, List.flatMap_append, faults_leftover]
        rfl
      · simp only [backlog, hchunk, List.foldr_cons, Arrival.weight]
        exact weight_leftover hroom rest

theorem Whole.receive {link : Link} {room : Nat} (hwhole : link.Whole room) (size : Nat) :
    (link.receive size).2.Whole room := by
  have hmeets := link.meets_receive size
  generalize link.receive size = receipt at hmeets ⊢
  cases hmeets with
  | closed => exact hwhole
  | nothing => exact hwhole
  | fault _ hfault =>
      refine ⟨hwhole.opened, fun hkind data hdata => hwhole.fits hkind data ?_⟩
      rw [hfault]
      exact List.mem_cons_of_mem _ hdata
  | @chunk data rest _ hchunk =>
      refine ⟨hwhole.opened, fun hkind chunk hmem => hwhole.fits hkind chunk ?_⟩
      have hnone : leftover link.kind size data = [] := by
        rw [show link.kind = .datagram from hkind]
        rfl
      rw [hchunk]
      exact List.mem_cons_of_mem _ (by simpa [hnone] using hmem)

/-- The octets of an arrival that a receive can get at. The room cuts a datagram off. -/
def reach (kind : LinkKind) (room : Nat) : Arrival → Bytes
  | .chunk data =>
      match kind with
      | .stream => data
      | .datagram => data.take room
  | .fault _ => []

/-- The octets that are still to be received, if the room is always the same. -/
def reachable (link : Link) (room : Nat) : Bytes :=
  link.arrivals.flatMap (reach link.kind room)

def yielded : Except LinkError Bytes → Bytes
  | .ok data => data
  | .error _ => []

theorem take_append_reach_leftover (kind : LinkKind) (room : Nat) (data : Bytes) :
    data.take room ++ (leftover kind room data).flatMap (reach kind room) =
      reach kind room (.chunk data) := by
  cases kind with
  | datagram => simp [leftover, reach]
  | stream =>
      by_cases hshort : data.length ≤ room
      · simp [leftover, reach, hshort, List.take_of_length_le hshort]
      · simp [leftover, reach, hshort]

@[simp] theorem kind_receive (link : Link) (room : Nat) :
    (link.receive room).2.kind = link.kind := by
  have hmeets := link.meets_receive room
  generalize link.receive room = receipt at hmeets ⊢
  cases hmeets <;> rfl

/-- A receive changes nothing but what is queued. -/
theorem exists_arrivals_receive (link : Link) (room : Nat) :
    ∃ arrivals, (link.receive room).2 = { link with arrivals } := by
  have hmeets := link.meets_receive room
  generalize link.receive room = receipt at hmeets ⊢
  cases hmeets with
  | closed | nothing => exact ⟨link.arrivals, rfl⟩
  | fault | chunk => exact ⟨_, rfl⟩

theorem reachable_receive (link : Link) (room : Nat) :
    link.reachable room =
      yielded (link.receive room).1 ++ (link.receive room).2.reachable room := by
  have hmeets := link.meets_receive room
  generalize link.receive room = receipt at hmeets ⊢
  cases hmeets with
  | closed => rfl
  | nothing => rfl
  | fault _ hfault =>
      rw [reachable, hfault]
      rfl
  | chunk _ hchunk =>
      simp only [reachable, hchunk, yielded, List.flatMap_cons, List.flatMap_append,
        ← List.append_assoc, take_append_reach_leftover]

end Link
end TopicBridge
