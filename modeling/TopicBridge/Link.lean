import TopicBridge.Bytes
import TopicBridge.Link.Error

/-! A link as its owner sees it: what has arrived and was not read yet, what was sent, and
whether it is closed. Arrivals are fed in and sent chunks are taken out from outside, so a
link is an ordinary value and the same for sockets, terminals and test beds. -/
namespace TopicBridge

/-- A stream keeps what a read leaves behind, a datagram link loses it. -/
inductive LinkKind where
  | stream
  | datagram
  deriving DecidableEq, Repr

/-- One thing that a receive finds: octets, possibly none, or a failure. -/
inductive Arrival where
  | chunk (data : Bytes)
  | fault (cause : LinkError)
  deriving DecidableEq, Repr

def Arrival.weight : Arrival → Nat
  | .chunk data => 2 * data.length + 1
  | .fault _ => 1

/-- `limit` is the largest message a send takes, if there is one. -/
structure Link where
  name : String
  kind : LinkKind
  limit : Option Nat := none
  arrivals : List Arrival := []
  sent : Array Bytes := #[]
  closed : Bool := false
  sendFault : Option LinkError := none
  closeFault : Option LinkError := none
  deriving DecidableEq, Repr

namespace Link

/-- The largest payload of one datagram. -/
def maxDatagram : Nat := 65507

def stream : Link := { name := "stream", kind := .stream }

def datagram : Link := { name := "datagram", kind := .datagram }

/-- An opened pair of sockets. `fault` is what the network makes of every send, if it has no
route to the other end. -/
def udp (fault : Option IoFailure) : Link :=
  { name := "udp"
    kind := .datagram
    limit := some maxDatagram
    sendFault := fault.map .io }

def serial : Link := { name := "serial", kind := .stream }

def isDatagram (link : Link) : Bool := link.kind == .datagram
def isReady (link : Link) : Bool := !link.closed

def arrive (link : Link) (arrival : Arrival) : Link :=
  { link with arrivals := link.arrivals ++ [arrival] }

/-- What stays queued of a chunk of which `room` octets were read. -/
def leftover (kind : LinkKind) (room : Nat) (data : Bytes) : List Arrival :=
  match kind with
  | .datagram => []
  | .stream => if data.length ≤ room then [] else [.chunk (data.drop room)]

/-- Reads at most `room` octets. Nothing queued reads as no octets. -/
def receive (link : Link) (room : Nat) : Except LinkError Bytes × Link :=
  if link.closed then (.error .closed, link)
  else
    match link.arrivals with
    | [] => (.ok [], link)
    | .fault cause :: rest => (.error cause, { link with arrivals := rest })
    | .chunk data :: rest =>
        (.ok (data.take room), { link with arrivals := leftover link.kind room data ++ rest })

/-- Why a send of `length` octets fails, if it does. -/
def refusal (link : Link) (length : Nat) : Option LinkError :=
  if link.closed then some .closed
  else
    match link.sendFault with
    | some cause => some cause
    | none => if link.limit.any (· < length) then some (.io .messageTooLong) else none

/-- Sends all of `data` or nothing. -/
def send (link : Link) (data : Bytes) : Except LinkError Unit × Link :=
  match link.refusal data.length with
  | some cause => (.error cause, link)
  | none => (.ok (), { link with sent := link.sent.push data })

/-- Stops the link, also when closing reports a failure. -/
def close (link : Link) : Except LinkError Unit × Link :=
  (match link.closeFault with
    | some cause => .error cause
    | none => .ok (),
   { link with closed := true })

/-- Twice the octets queued, plus the items: what bounds the receives left to make. -/
def backlog (link : Link) : Nat :=
  link.arrivals.foldr (fun arrival n => arrival.weight + n) 0

end Link
end TopicBridge
