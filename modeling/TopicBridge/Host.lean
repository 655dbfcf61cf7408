import TopicBridge.Error
import TopicBridge.Text.Quoted
import TopicBridge.Topic.Mapping

/-! The messaging side of a bridge. A host is asked once for each topic: to publish what comes
in on it, or to take a handle for what goes out. -/
namespace TopicBridge

/-- The handle with which a host sends on one topic. -/
structure OutboundTopic where
  topicId : UInt8
  name : String
  headerLength : Nat
  deriving DecidableEq, Repr

def OutboundTopic.describe (topic : OutboundTopic) : String :=
  s!"OutboundTopic \x7b topic_id: {topic.topicId}, name: {Text.quote topic.name}, header_len: {topic.headerLength} \x7d"

/-- What becomes of a payload handed to the host. A crash takes the reading side down. -/
inductive Delivery where
  | done
  | refused (cause : BridgeError)
  | crashed
  deriving DecidableEq, Repr

/-- A host, as a state that registrations and publications change. -/
class Host (η : Type) where
  openInbound : η → TopicMapping → Except BridgeError η
  openOutbound : η → TopicMapping → OutboundTopic → Except BridgeError η
  publish : η → TopicMapping → Bytes → Delivery × η

end TopicBridge
