import TopicBridge.Exit
import TopicBridge.Parameter
import TopicBridge.Yaml.Value

/-! Parameters from a document. Nested mappings become dotted names. A document may hold one block
of parameters per node of a system, and then only the chosen block counts. -/
namespace TopicBridge.Parameters

open Yaml (Scalar Value)

/-- The parameter that a scalar stands for. Nothing stands for none, and an integer that does not
fit 64 signed bits for the nearest fraction. -/
def ofScalar : Scalar → Option ParamValue
  | .null => none
  | .bool value => some (.bool value)
  | .int n =>
      some (if (Text.IntegerRange.signed 64).contains n then .int (Int64.ofInt n)
        else .float (Float.ofInt n))
  | .float value => some (.float value)
  | .string text => some (.string text)

/-- The text of a key, if it can be part of a name. -/
def keyText? : Value → Option String
  | .scalar key => key.toText?
  | _ => none

def join (above key : String) : String := if above.isEmpty then key else s!"{above}.{key}"

mutual

/-- Adds the scalars of a mapping under their joined names, in the order of the document. -/
def flatten (above : String) : List (Value × Value) → Parameters → Except Failure Parameters
  | [], params => .ok params
  | entry :: rest, params =>
      match addEntry above entry params with
      | .ok params => flatten above rest params
      | .error failure => .error failure

/-- Adds what an entry holds under the name of its key. -/
def addEntry (above : String) : Value × Value → Parameters → Except Failure Parameters
  | (key, value), params =>
      match keyText? key with
      | some key => addValue (join above key) value params
      | none => .error ⟨Failure.dataInvalid, s!"unsupported key under '{above}'"⟩

/-- Adds a scalar under its name, or the scalars of a mapping under longer ones. -/
def addValue (name : String) : Value → Parameters → Except Failure Parameters
  | .scalar scalar, params =>
      match ofScalar scalar with
      | some value => .ok (params.insert name value)
      | none => .ok params
  | .mapping entries, params => flatten name entries params
  | .sequence _, _ => .error ⟨Failure.dataInvalid, s!"parameter {name} must be a scalar"⟩
  | .tagged _ _, _ => .error ⟨Failure.dataInvalid, s!"parameter {name} must be a scalar"⟩

end

/-- The key of a node's parameters. -/
def blockKey : String := "ros__parameters"

/-- The blocks of a document with the names of their nodes. -/
def blocks (root : List (Value × Value)) : List (String × List (Value × Value)) :=
  root.filterMap fun entry => do
    let body ← entry.2.entries?
    let block ← (← Value.lookup body blockKey).entries?
    let name ← entry.1.string?
    return (name, block)

def bareName (name : String) : List Char := name.toList.dropWhile (· == '/')

/-- The block of the chosen node. Without a choice it is the only block, or all of a document
without blocks. -/
def select (root : List (Value × Value)) (node : Option String) :
    Except Failure (List (Value × Value)) :=
  match node, blocks root with
  | some node, found =>
      match found.find? fun block => bareName block.1 == bareName node with
      | some block => .ok block.2
      | none => .error ⟨Failure.badParameter, s!"no ros__parameters for node {node}"⟩
  | none, [] => .ok root
  | none, [block] => .ok block.2
  | none, several =>
      let names := ", ".intercalate (several.map (·.1))
      .error ⟨Failure.badParameter,
        s!"several nodes in parameter file ({names}), pick one with --node"⟩

/-- The parameters of a document. An empty one has none. -/
def ofDocument (text : String) (node : Option String) : Except Failure Parameters := do
  let root ← match Value.parse? text with
    | none => .error ⟨Failure.dataInvalid, "invalid YAML"⟩
    | some (.mapping entries) => .ok entries
    | some (.scalar .null) => .ok []
    | some _ => .error ⟨Failure.dataInvalid, "parameter file must contain a mapping"⟩
  flatten "" (← select root node) .empty

end TopicBridge.Parameters
