import TopicBridge.Host

/-! A host in memory. It keeps what is published and the handles it is given, refuses the topics
it is told to refuse, and fails or crashes on the payloads it is told to. -/
namespace TopicBridge

structure Recorder where
  refused : List String := []
  poison : List Bytes := []
  fatal : List Bytes := []
  published : Array (String × Bytes) := #[]
  outbound : Array OutboundTopic := #[]
  deriving DecidableEq, Repr

namespace Recorder

def openInbound (host : Recorder) (mapping : TopicMapping) : Except BridgeError Recorder :=
  if host.refused.contains mapping.name then
    .error (.host s!"no type support for {mapping.typeName}")
  else .ok host

def openOutbound (host : Recorder) (topic : OutboundTopic) : Except BridgeError Recorder :=
  if host.refused.contains topic.name then .error (.host s!"cannot subscribe {topic.name}")
  else .ok { host with outbound := host.outbound.push topic }

def publish (host : Recorder) (mapping : TopicMapping) (payload : Bytes) : Delivery × Recorder :=
  if host.fatal.contains payload then (.crashed, host)
  else if host.poison.contains payload then (.refused (.host "cannot deserialize"), host)
  else (.done, { host with published := host.published.push (mapping.name, payload) })

instance : Host Recorder where
  openInbound := openInbound
  openOutbound host _ topic := openOutbound host topic
  publish := publish

end Recorder
end TopicBridge
