import TopicBridge.Writer

/-! Both halves of a framed link in one value, and two endpoints on links that are each
other's peer. -/
namespace TopicBridge

structure Endpoint where
  link : Link
  reader : Reader
  writer : Writer

namespace Endpoint

def create (link : Link) (config : FrameConfig) : Except FrameError Endpoint := do
  let reader ← Reader.create config
  let writer ← Writer.create config
  .ok { link, reader, writer }

def config (endpoint : Endpoint) : FrameConfig := endpoint.reader.config
def headerLength (endpoint : Endpoint) : Nat := endpoint.reader.headerLength
def maxPayload (endpoint : Endpoint) : Nat := endpoint.reader.maxPayload

def arrive (endpoint : Endpoint) (arrival : Arrival) : Endpoint :=
  { endpoint with link := endpoint.link.arrive arrival }

def read (endpoint : Endpoint) : Except FrameError (Option Frame) × Endpoint :=
  let (result, reader, link) := endpoint.reader.readFrame endpoint.link
  (result, { endpoint with reader, link })

def write (endpoint : Endpoint) (topic : UInt8) (payload : Bytes) :
    Except FrameError Nat × Endpoint :=
  let (result, writer, link) := endpoint.writer.write endpoint.link topic payload
  (result, { endpoint with writer, link })

def close (endpoint : Endpoint) : Except FrameError Unit × Endpoint :=
  let (result, link) := endpoint.link.close
  (result.mapError .link, { endpoint with link })

/-- A bound on the reads that can still use something up. -/
def backlog (endpoint : Endpoint) : Nat :=
  endpoint.link.backlog + endpoint.reader.buffered

/-- How many of the next reads, at most `limit`, come to pass until one finds nothing and uses
nothing up, that one included. -/
def readsUntilQuiet : Nat → Endpoint → Nat
  | 0, _ => 0
  | limit + 1, endpoint =>
      let (result, next) := endpoint.read
      match result with
      | .ok none =>
          if next.backlog = endpoint.backlog then 1 else readsUntilQuiet limit next + 1
      | _ => readsUntilQuiet limit next + 1

end Endpoint

/-- Two endpoints; what one sends arrives at the other. -/
structure Endpoint.Pair where
  left : Endpoint
  right : Endpoint

namespace Endpoint.Pair

inductive Side where
  | left
  | right
  deriving DecidableEq, Repr

def Side.other : Side → Side
  | .left => .right
  | .right => .left

def create (leftLink rightLink : Link) (config : FrameConfig) : Except FrameError Pair := do
  let left ← Endpoint.create leftLink config
  let right ← Endpoint.create rightLink config
  .ok { left, right }

def get (pair : Pair) : Side → Endpoint
  | .left => pair.left
  | .right => pair.right

def set (pair : Pair) (side : Side) (endpoint : Endpoint) : Pair :=
  match side with
  | .left => { pair with left := endpoint }
  | .right => { pair with right := endpoint }

/-- Queues at the other end what a link has sent beyond its first `before` chunks. -/
def carry (pair : Pair) (side : Side) (before : Nat) : Pair :=
  let chunks := (pair.get side).link.sent.toList.drop before
  let peer := pair.get side.other
  pair.set side.other (chunks.foldl (fun peer data => peer.arrive (.chunk data)) peer)

def write (pair : Pair) (side : Side) (topic : UInt8) (payload : Bytes) :
    Except FrameError Nat × Pair :=
  let endpoint := pair.get side
  let (result, written) := endpoint.write topic payload
  (result, (pair.set side written).carry side endpoint.link.sent.size)

def read (pair : Pair) (side : Side) : Except FrameError (Option Frame) × Pair :=
  let (result, endpoint) := (pair.get side).read
  (result, pair.set side endpoint)

def close (pair : Pair) (side : Side) : Except FrameError Unit × Pair :=
  let (result, endpoint) := (pair.get side).close
  (result, pair.set side endpoint)

end Endpoint.Pair
end TopicBridge
