import Mathlib.Logic.Function.Iterate
import TopicBridge.Negotiation

/-! The two ends of a negotiation as machines that make one write or one read in each turn, so that
their turns can be put in any order and a deadline can fall between any two of them. A machine left
alone gives what the question and the answer of `TopicBridge.Negotiation` give. -/
namespace TopicBridge.Negotiation

/-- About to write its one frame, waiting for the frame it needs, or at its end. -/
inductive Stand (α : Type) where
  | writing
  | awaiting
  | ended (result : Except BridgeError α)

/-- What a party writes and what it waits for, and where it stands after either. -/
structure Party (α : Type) where
  topic : UInt8
  payload : Bytes
  awaited : UInt8
  wait : Duration
  written : Except FrameError Nat → Stand α
  received : Except BridgeError Bytes → Stand α

/-- How a read ends the wait for a frame on `topic`, if it does. -/
def heard (topic : UInt8) : Except FrameError (Option Frame) → Option (Except BridgeError Bytes)
  | .ok (some frame) => if frame.topic = topic then some (.ok frame.payload) else none
  | .ok none => none
  | .error cause => if cause.isTransient then none else some (.error (.frame cause))

/-- Asks once, then waits for the answer and reads the table in it. -/
def client (wait : Duration) : Party Table :=
  { topic := Topic.request
    payload := []
    awaited := Topic.response
    wait
    written := fun result =>
      match result with
      | .ok _ => .awaiting
      | .error cause => .ended (.error (.frame cause))
    received := fun payload => .ended (payload >>= MappingMessage.decode >>= Table.ofMessage) }

/-- Waits for the question, then answers it once. -/
def server (message : MappingMessage) (wait : Duration) : Party Unit :=
  { topic := Topic.response
    payload := message.encode
    awaited := Topic.request
    wait
    written := fun result => .ended ((result.map fun _ => ()).mapError .frame)
    received := fun asked =>
      match asked with
      | .ok _ => .writing
      | .error cause => .ended (.error cause) }

@[simp] theorem awaited_client (wait : Duration) :
    (client wait).awaited = Topic.response := rfl

@[simp] theorem awaited_server (message : MappingMessage) (wait : Duration) :
    (server message wait).awaited = Topic.request := rfl

namespace Party

variable {α : Type}

def afterRead (party : Party α) (result : Except FrameError (Option Frame)) : Stand α :=
  ((heard party.awaited result).map party.received).getD .awaiting

def turn (party : Party α) : Stand α × Endpoint → Stand α × Endpoint
  | (.writing, endpoint) =>
      let (result, endpoint) := endpoint.write party.topic party.payload
      (party.written result, endpoint)
  | (.awaiting, endpoint) =>
      let (result, endpoint) := endpoint.read
      (party.afterRead result, endpoint)
  | (.ended result, endpoint) => (.ended result, endpoint)

/-- The deadline, which only a wait can miss. -/
def late (party : Party α) : Stand α → Stand α
  | .awaiting => party.received (.error (.negotiationTimeout party.wait))
  | stand => stand

/-- So many turns, and then the deadline. -/
def alone (party : Party α) (turns : Nat) (state : Stand α × Endpoint) : Stand α × Endpoint :=
  (party.turn^[turns] state).map party.late id

section
variable (party : Party α) {turns : Nat} {state : Stand α × Endpoint} {endpoint : Endpoint}

theorem turn_writing :
    party.turn (.writing, endpoint) =
      (party.written (endpoint.write party.topic party.payload).1,
        (endpoint.write party.topic party.payload).2) := rfl

theorem turn_awaiting :
    party.turn (.awaiting, endpoint) = (party.afterRead endpoint.read.1, endpoint.read.2) := rfl

theorem alone_succ : party.alone (turns + 1) state = party.alone turns (party.turn state) := by
  rw [alone, Function.iterate_succ_apply]
  rfl

theorem alone_ended (result : Except BridgeError α) :
    party.alone turns (.ended result, endpoint) = (.ended result, endpoint) := by
  rw [alone, Function.iterate_fixed rfl]
  rfl

theorem afterRead_of_frame {frame : Frame} (h : frame.topic = party.awaited) :
    party.afterRead (.ok (some frame)) = party.received (.ok frame.payload) := by
  rw [afterRead, heard, if_pos h]
  rfl

theorem afterRead_of_other {frame : Frame} (h : frame.topic ≠ party.awaited) :
    party.afterRead (.ok (some frame)) = .awaiting := by
  rw [afterRead, heard, if_neg h]
  rfl

end
end Party

section
variable {topic : UInt8} {wait : Duration} {reads : Nat} {endpoint : Endpoint}

theorem await_succ :
    await topic wait (reads + 1) endpoint =
      match heard topic endpoint.read.1 with
      | some outcome => (outcome, endpoint.read.2)
      | none => await topic wait reads endpoint.read.2 := by
  rw [await]
  rcases endpoint.read with ⟨result, next⟩
  rcases result with cause | _ | frame
  · cases htransient : cause.isTransient <;> simp [heard, htransient]
  · rfl
  · by_cases hframe : frame.topic = topic <;> simp [heard, hframe]

theorem client_alone (reads : Nat) (endpoint : Endpoint) :
    (client wait).alone reads (.awaiting, endpoint) =
      (.ended ((await Topic.response wait reads endpoint).1 >>= MappingMessage.decode >>=
        Table.ofMessage), (await Topic.response wait reads endpoint).2) := by
  induction reads generalizing endpoint with
  | zero => rfl
  | succ reads ih =>
      rw [Party.alone_succ, Party.turn_awaiting, Party.afterRead, awaited_client, await_succ]
      cases heard Topic.response endpoint.read.1 with
      | none => exact ih endpoint.read.2
      | some outcome => exact Party.alone_ended ..

/-- A question is what the client does alone: one write, then reads until the deadline. -/
theorem negotiate_eq_turns (wait : Duration) (reads : Endpoint → Nat) (endpoint : Endpoint) :
    let asked := (client wait).turn (.writing, endpoint)
    (client wait).alone (reads asked.2) asked =
      (.ended (negotiate wait reads endpoint).1, (negotiate wait reads endpoint).2) := by
  rcases hwrite : endpoint.write Topic.request [] with ⟨written, next⟩
  have hturn : (client wait).turn (.writing, endpoint) = ((client wait).written written, next) := by
    change ((client wait).written (endpoint.write Topic.request []).1,
      (endpoint.write Topic.request []).2) = _
    rw [hwrite]
  rw [negotiate, request, hwrite, hturn]
  cases written with
  | error cause => exact Party.alone_ended ..
  | ok length => exact client_alone ..

theorem server_alone (message : MappingMessage) (reads : Nat) (endpoint : Endpoint) :
    let asked := await Topic.request wait reads endpoint
    (server message wait).turn ((server message wait).alone reads (.awaiting, endpoint)) =
      (server message wait).turn ((server message wait).received asked.1, asked.2) := by
  induction reads generalizing endpoint with
  | zero => rfl
  | succ reads ih =>
      rw [Party.alone_succ, Party.turn_awaiting, Party.afterRead, awaited_server, await_succ]
      cases heard Topic.request endpoint.read.1 with
      | none => exact ih endpoint.read.2
      | some outcome =>
          cases outcome with
          | error cause => exact congrArg _ (Party.alone_ended ..)
          | ok payload =>
              cases reads with
              | zero => rfl
              | succ reads =>
                  change (server message wait).turn
                    ((server message wait).alone reads (.ended _, _)) = _
                  rw [Party.alone_ended]
                  rfl

/-- An answer is what the server does alone: reads until the deadline, then one more turn. -/
theorem serve_eq_turns (message : MappingMessage) (wait : Duration) (reads : Endpoint → Nat)
    (endpoint : Endpoint) :
    (server message wait).turn
        ((server message wait).alone (reads endpoint) (.awaiting, endpoint)) =
      (.ended (serve message wait reads endpoint).1, (serve message wait reads endpoint).2) := by
  rw [server_alone, serve]
  rcases await Topic.request wait (reads endpoint) endpoint with ⟨asked, next⟩
  cases asked with
  | error cause => rfl
  | ok payload => rfl

end
end TopicBridge.Negotiation
