import TopicBridge.Topic.Cdr
import TopicBridge.Error

/-! The negotiation message: four parallel sequences with one entry for each topic. -/
namespace TopicBridge

structure MappingMessage where
  names : List String := []
  ids : Bytes := []
  types : List String := []
  directions : Bytes := []
  deriving DecidableEq, Repr

namespace MappingMessage

def encode (message : MappingMessage) : Bytes :=
  let names := Cdr.textSequence 0 message.names
  let ids := names ++ Cdr.octetSequence names.length message.ids
  let types := ids ++ Cdr.textSequence ids.length message.types
  types ++ Cdr.octetSequence types.length message.directions

/-- Reads the four fields in order. Octets behind them do not matter. -/
def read (data : Bytes) : Except Cdr.Fault MappingMessage := do
  let (names, cursor) ← Cdr.readTextSequence "topic_names" ⟨0, data⟩
  let (ids, cursor) ← Cdr.readOctetSequence "serial_mappings" cursor
  let (types, cursor) ← Cdr.readTextSequence "types" cursor
  let (directions, _) ← Cdr.readOctetSequence "direction" cursor
  .ok { names, ids, types, directions }

def decode (data : Bytes) : Except BridgeError MappingMessage :=
  (read data).mapError fun fault => .malformedNegotiation fault.message

/-- The number of topics, if the four sequences agree on it. -/
def commonLength (message : MappingMessage) : Except BridgeError Nat :=
  let length := message.names.length
  if message.ids.length = length ∧ message.types.length = length ∧
      message.directions.length = length then .ok length
  else
    .error (.malformedNegotiation
      s!"names, mappings, types, and directions must all be the same size ({length}, {message.ids.length}, {message.types.length}, {message.directions.length})")

end MappingMessage
end TopicBridge
