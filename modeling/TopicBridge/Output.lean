import TopicBridge.Json.Escape
import TopicBridge.Text.Grid
import TopicBridge.Text.Hex
import TopicBridge.Topic.Table

/-! How published messages and topic tables are printed: as an object on one line, as a drawn
table, or as plain text. -/
namespace TopicBridge

inductive OutputFormat where
  | json
  | table
  | pretty
  deriving DecidableEq, Repr

namespace OutputFormat

def ofName? : String → Option OutputFormat
  | "json" => some .json
  | "table" => some .table
  | "pretty" => some .pretty
  | _ => none

end OutputFormat

namespace Output

def object (members : List (String × String)) : String :=
  "\x7b" ++ ",".intercalate (members.map fun (name, value) => Json.quote name ++ ":" ++ value) ++
    "\x7d"

def array (items : List String) : String := "[" ++ ",".intercalate items ++ "]"

def message (format : OutputFormat) (mapping : TopicMapping) (payload : Bytes) : String :=
  let id := toString mapping.topicId
  let size := toString payload.length
  let digits := Hex.render payload
  match format with
  | .json =>
      object [("topic", Json.quote mapping.name), ("type", Json.quote mapping.typeName),
        ("topic_id", id), ("size", size), ("payload", Json.quote digits)]
  | .table =>
      Text.grid ["TOPIC", "TYPE", "ID", "SIZE", "PAYLOAD"]
        [[mapping.name, mapping.typeName, id, size, digits]]
  | .pretty =>
      s!"topic={mapping.name} type={mapping.typeName} id={id} size={size} payload={digits}"

def directionName : Direction → String
  | .serialToHost => "SerialToHost"
  | .hostToSerial => "HostToSerial"
  | .unknown => "Unknown"

def mapping (m : TopicMapping) : String :=
  object [("topic_id", toString m.topicId), ("name", Json.quote m.name),
    ("type", Json.quote m.typeName), ("direction", Json.quote (directionName m.direction))]

def alignedId (id : UInt8) : String :=
  let digits := toString id
  String.ofList (List.replicate (3 - digits.length) ' ') ++ digits

def table (format : OutputFormat) (topics : Table) (source : String) : String :=
  match format with
  | .json =>
      object [("source", Json.quote source), ("topics", array (topics.mappings.map mapping))]
  | .table =>
      Text.grid ["ID", "TOPIC", "TYPE", "DIRECTION"]
        (topics.mappings.map fun m =>
          [toString m.topicId, m.name, m.typeName, m.direction.name])
  | .pretty =>
      let rows := topics.mappings.map fun m =>
        s!"\n  {alignedId m.topicId}  {m.name}  {m.typeName}  {m.direction.name}"
      s!"Topic table ({source}, {topics.size} topics):" ++ String.join rows

end Output
end TopicBridge
