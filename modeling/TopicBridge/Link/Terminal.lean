import TopicBridge.Link

/-! A terminal with a program at its other side. An opened terminal passes octets unchanged;
closing gives it back its line discipline, which fails once the other side has gone. -/
namespace TopicBridge

/-- `canonical` says whether input is edited line by line, `attached` whether the other side is
there, `taken` how many octets the other side has read. -/
structure Terminal where
  link : Link := .serial
  canonical : Bool := false
  attached : Bool := true
  taken : Nat := 0
  deriving DecidableEq, Repr

namespace Terminal

def feed (terminal : Terminal) (data : Bytes) : Terminal :=
  { terminal with link := terminal.link.arrive (.chunk data) }

def drain (terminal : Terminal) (n : Nat) : Bytes × Terminal :=
  let data := (terminal.link.sent.toList.flatten.drop terminal.taken).take n
  (data, { terminal with taken := terminal.taken + data.length })

/-- The other side goes away, and what it wrote and nobody read goes with it. -/
def hangUp (terminal : Terminal) : Terminal :=
  { terminal with link := { terminal.link with arrivals := [] }, attached := false }

/-- Receives until `n` octets have come, or none are left. -/
def collect (n : Nat) : Nat → Terminal → Except LinkError Bytes × Terminal
  | 0, terminal => (.ok [], terminal)
  | tries + 1, terminal =>
      let (received, link) := terminal.link.receive n
      let terminal := { terminal with link }
      match received with
      | .error cause => (.error cause, terminal)
      | .ok data =>
          if data.isEmpty ∨ n ≤ data.length then (.ok data, terminal)
          else
            let (more, terminal) := collect (n - data.length) tries terminal
            (more.map (data ++ ·), terminal)

/-- Every chunk that has arrived takes at most one receive. -/
def receive (terminal : Terminal) (n : Nat) : Except LinkError Bytes × Terminal :=
  collect n (terminal.link.arrivals.length + 1) terminal

def send (terminal : Terminal) (data : Bytes) : Except LinkError Nat × Terminal :=
  if terminal.link.isReady && !terminal.attached && !data.isEmpty then
    (.error (.io .inputOutput), terminal)
  else
    let (sent, link) := terminal.link.send data
    (sent.map fun _ => data.length, { terminal with link })

/-- Closing twice is closing once. -/
def close (terminal : Terminal) : Except LinkError Unit × Terminal :=
  if terminal.link.closed then (.ok (), terminal)
  else
    let link := { terminal.link with closed := true }
    if terminal.attached then (.ok (), { terminal with link, canonical := true })
    else (.error (.io .inputOutput), { terminal with link })

end Terminal
end TopicBridge
