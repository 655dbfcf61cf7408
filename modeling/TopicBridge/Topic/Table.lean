import TopicBridge.Frame
import TopicBridge.OrderedMap
import TopicBridge.Parameter
import TopicBridge.Text.Split
import TopicBridge.Topic.Mapping
import TopicBridge.Topic.Message

/-! The table of topics by their ids on the link. It is built from a list, from startup
parameters or from a negotiation message, and each way refuses unknown directions, reserved
ids and ids that occur twice. -/
namespace TopicBridge

/-- Mappings in strictly ascending order of their ids. -/
structure Table where
  topics : OrderedMap UInt8 TopicMapping

namespace Table

def empty : Table := ⟨.empty⟩

def mappings (table : Table) : List TopicMapping := table.topics.values

def size (table : Table) : Nat := table.topics.size

def find? (table : Table) (id : UInt8) : Option TopicMapping := table.topics.find? id

/-- The mapping of that name with the lowest id. -/
def named? (table : Table) (name : String) : Option TopicMapping :=
  table.mappings.find? fun mapping => mapping.name = name

def inbound (table : Table) : List TopicMapping :=
  table.mappings.filter fun mapping => mapping.direction = .serialToHost

def outbound (table : Table) : List TopicMapping :=
  table.mappings.filter fun mapping => mapping.direction = .hostToSerial

/-- Adds a mapping whose direction is known and whose id is free for applications. -/
def add (table : Table) (mapping : TopicMapping) : Except BridgeError Table :=
  if mapping.direction = .unknown then
    .error (.invalidDirection mapping.name mapping.direction.name)
  else if Topic.isReserved mapping.topicId then
    .error (.reservedTopicId mapping.name mapping.topicId)
  else
    match table.find? mapping.topicId with
    | some first => .error (.duplicateTopicId mapping.topicId first.name mapping.name)
    | none => .ok ⟨table.topics.insert mapping.topicId mapping⟩

def ofMappings (mappings : List TopicMapping) : Except BridgeError Table :=
  mappings.foldlM add empty

/-- What the parameters seen so far say about one topic. -/
structure Draft where
  topicId : Option UInt8 := none
  typeName : Option String := none
  direction : Option Direction := none
  deriving DecidableEq, Repr

/-- The topic and the setting that a parameter name of the form `topics.<topic>.<setting>`
speaks of. -/
def topicKey? (key : String) : Option (String × String) :=
  match Text.split '.' key.toList with
  | [head, topic, setting] =>
      if head = "topics".toList ∧ topic ≠ [] ∧ setting ≠ [] then
        some (String.ofList topic, String.ofList setting)
      else none
  | _ => none

def Draft.read (params : Parameters) (key topic setting : String) (draft : Draft) :
    Except BridgeError Draft :=
  match setting with
  | "serial_mapping" =>
      (params.requireNat 8 key).map fun id => { draft with topicId := some (UInt8.ofNat id) }
  | "type" => (params.requireString key).map fun typeName => { draft with typeName := some typeName }
  | "direction" => do
      let value ← params.requireString key
      match Direction.ofName? value with
      | some direction => .ok { draft with direction := some direction }
      | none => .error (.invalidDirection topic value)
  | _ => .error (.invalidParameter key s!"unknown topic setting '{setting}'")

/-- Takes one parameter name into account. Names of another form say nothing. -/
def draftKey (params : Parameters) (drafts : OrderedMap String Draft) (key : String) :
    Except BridgeError (OrderedMap String Draft) :=
  match topicKey? key with
  | none => .ok drafts
  | some (topic, setting) =>
      (((drafts.find? topic).getD {}).read params key topic setting).map (drafts.insert topic)

def Draft.complete (name : String) (draft : Draft) : Except BridgeError TopicMapping :=
  match draft.topicId, draft.typeName, draft.direction with
  | none, _, _ => .error (.incompleteTopic name "serial_mapping")
  | _, none, _ => .error (.incompleteTopic name "type")
  | _, _, none => .error (.incompleteTopic name "direction")
  | some topicId, some typeName, some direction => .ok { topicId, name, typeName, direction }

/-- Settings are read in the order of the parameter names, topics completed in the order of
their own names. -/
def ofParameters (params : Parameters) : Except BridgeError Table := do
  let drafts ← params.keys.foldlM (draftKey params) .empty
  let mappings ← drafts.entries.mapM fun (name, draft) => draft.complete name
  ofMappings mappings

def rows : List String → Bytes → List String → Bytes → Except BridgeError (List TopicMapping)
  | name :: names, topicId :: ids, typeName :: types, code :: codes =>
      match Direction.ofCode? code with
      | none =>
          .error (.malformedNegotiation s!"unknown direction code {code} for topic {name}")
      | some direction =>
          (rows names ids types codes).map ({ topicId, name, typeName, direction } :: ·)
  | _, _, _, _ => .ok []

def ofMessage (message : MappingMessage) : Except BridgeError Table := do
  let _ ← message.commonLength
  let mappings ← rows message.names message.ids message.types message.directions
  ofMappings mappings

/-- The message that describes the table. An unknown direction, which no way of building a table
lets in, would count as inbound. -/
def toMessage (table : Table) : MappingMessage :=
  { names := table.mappings.map (·.name)
    ids := table.mappings.map (·.topicId)
    types := table.mappings.map (·.typeName)
    directions := table.mappings.map fun mapping => mapping.direction.code?.getD 0 }

end Table
end TopicBridge
