import TopicBridge.Endpoint
import TopicBridge.Settings
import TopicBridge.Topic.Table

/-! Asking the other end for its topic table, and answering that question. Time enters as the
number of reads that fit the wait: when they are used up without the awaited frame, the wait is
over. Other frames and lost frames are passed over. -/
namespace TopicBridge.Negotiation

/-- Reads until a frame on `topic` arrives, at most `reads` times. -/
def await (topic : UInt8) (wait : Duration) :
    Nat → Endpoint → Except BridgeError Bytes × Endpoint
  | 0, endpoint => (.error (.negotiationTimeout wait), endpoint)
  | reads + 1, endpoint =>
      let (result, endpoint) := endpoint.read
      match result with
      | .ok (some frame) =>
          if frame.topic = topic then (.ok frame.payload, endpoint)
          else await topic wait reads endpoint
      | .ok none => await topic wait reads endpoint
      | .error cause =>
          if cause.isTransient then await topic wait reads endpoint
          else (.error (.frame cause), endpoint)

/-- The reads that fit a wait when nothing more arrives: none if there is no time, else every
read that finds something and one that finds nothing. -/
def readsWithin (wait : Duration) (endpoint : Endpoint) : Nat :=
  if wait.isZero then 0 else endpoint.readsUntilQuiet (endpoint.backlog + 1)

/-- Asks for the table and takes the first answer. `reads` says how many reads fit the wait once
the question is out. -/
def request (wait : Duration) (reads : Endpoint → Nat) (endpoint : Endpoint) :
    Except BridgeError MappingMessage × Endpoint :=
  let (written, endpoint) := endpoint.write Topic.request []
  match written with
  | .error cause => (.error (.frame cause), endpoint)
  | .ok _ =>
      let (payload, endpoint) := await Topic.response wait (reads endpoint) endpoint
      (payload >>= MappingMessage.decode, endpoint)

def negotiate (wait : Duration) (reads : Endpoint → Nat) (endpoint : Endpoint) :
    Except BridgeError Table × Endpoint :=
  let (message, endpoint) := request wait reads endpoint
  (message >>= Table.ofMessage, endpoint)

def serve (message : MappingMessage) (wait : Duration) (reads : Endpoint → Nat)
    (endpoint : Endpoint) : Except BridgeError Unit × Endpoint :=
  let (asked, endpoint) := await Topic.request wait (reads endpoint) endpoint
  match asked with
  | .error cause => (.error cause, endpoint)
  | .ok _ =>
      let (written, endpoint) := endpoint.write Topic.response message.encode
      ((written.map fun _ => ()).mapError .frame, endpoint)

/-- The table a bridge starts with: negotiated if the settings say so, else from the
parameters. -/
def loadTable (settings : Settings) (params : Parameters) (reads : Duration → Endpoint → Nat)
    (endpoint : Endpoint) : Except BridgeError Table × Endpoint :=
  match settings.negotiationWait with
  | some wait => negotiate wait (reads wait) endpoint
  | none => (Table.ofParameters params, endpoint)

end TopicBridge.Negotiation
