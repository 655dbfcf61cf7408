import TopicBridge.Bridge
import TopicBridge.Host.Line
import TopicBridge.Output
import TopicBridge.Topic.Cdr

/-! A host that speaks in lines of text. Messages from the link are printed, messages for the
link are read and wait in a queue until they are pumped out. Outbound topics are known by their
names, and a later topic takes the name from an earlier one. -/
namespace TopicBridge

/-- `broken` is why printing fails, if it does. -/
structure StdioHost where
  format : OutputFormat
  broken : Option IoFailure := none
  printed : Array String := #[]
  published : Nat := 0
  outbound : OrderedMap String OutboundTopic := .empty
  queue : List HostMessage := []

namespace StdioHost

def publish (host : StdioHost) (mapping : TopicMapping) (payload : Bytes) :
    Delivery × StdioHost :=
  match host.broken with
  | some cause => (.refused (.host s!"stdout: {cause.text}"), host)
  | none =>
      (.done,
       { host with
         printed := host.printed.push (Output.message host.format mapping payload ++ "\n")
         published := host.published + 1 })

instance : Host StdioHost where
  openInbound host _ := .ok host
  openOutbound host _ topic := .ok { host with outbound := host.outbound.insert topic.name topic }
  publish := publish

def enqueue (host : StdioHost) (message : HostMessage) : StdioHost :=
  { host with queue := host.queue ++ [message] }

/-- Cuts octets into lines; `current` holds those since the last line feed, latest first. -/
def linesFrom (current : Bytes) : Bytes → List Bytes
  | [] => if current.isEmpty then [] else [current.reverse]
  | b :: rest =>
      if b = 0x0A then
        let line := match current with
          | 0x0D :: before => before
          | _ => current
        line.reverse :: linesFrom [] rest
      else linesFrom (b :: current) rest

/-- The lines of a text: each up to a line feed, a carriage return before it removed. What
follows the last line feed is a line if it is not empty. -/
def lines (data : Bytes) : List Bytes := linesFrom [] data

/-- The messages that lines spell. Blank lines and lines that are no message are passed over; a
line that is not text ends the reading. -/
def messages : List Bytes → List HostMessage
  | [] => []
  | line :: rest =>
      match Cdr.utf8? line with
      | none => []
      | some text =>
          if (Text.trim text.toList).isEmpty then messages rest
          else
            match HostMessage.parse text with
            | .ok message => message :: messages rest
            | .error _ => messages rest

def readLines (host : StdioHost) (data : Bytes) : StdioHost :=
  (messages (lines data)).foldl enqueue host

end StdioHost

namespace Bridge

/-- Sends one queued message. No topic of that name drops it. -/
def pumpOne (bridge : Bridge StdioHost) (message : HostMessage) : Nat × Bridge StdioHost :=
  match bridge.host.outbound.find? message.topic with
  | none => (0, bridge)
  | some topic =>
      let (sent, bridge) := bridge.send topic message.payload
      (if sent.isOk then 1 else 0, bridge)

/-- Sends every queued message in order, and counts the ones that went out. -/
def pump (bridge : Bridge StdioHost) : Nat × Bridge StdioHost :=
  let start := { bridge with host := { bridge.host with queue := [] } }
  bridge.host.queue.foldl (fun (count, bridge) message =>
    let (sent, bridge) := bridge.pumpOne message
    (count + sent, bridge)) (0, start)

end Bridge
end TopicBridge
