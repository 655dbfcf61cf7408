import TopicBridge.Yaml.Node
import TopicBridge.Yaml.Scalar

/-! The values of a document: scalars, sequences, mappings without repeated keys, and values under
a tag of the document's own. Entries keep their order. -/
namespace TopicBridge.Yaml

inductive Value where
  | scalar (scalar : Scalar)
  | sequence (items : List Value)
  | mapping (entries : List (Value × Value))
  | tagged (tag : String) (value : Value)

namespace Value

mutual

/-- Whether two values are the same key. The order of entries does not count. -/
def same : Value → Value → Bool
  | .scalar a, .scalar b => a.same b
  | .sequence xs, .sequence ys => sameItems xs ys
  | .mapping xs, .mapping ys => xs.length == ys.length && sameEntries xs ys
  | .tagged s x, .tagged t y => s == t && x.same y
  | _, _ => false

def sameItems : List Value → List Value → Bool
  | [], [] => true
  | x :: xs, y :: ys => x.same y && sameItems xs ys
  | _, _ => false

def sameEntries : List (Value × Value) → List (Value × Value) → Bool
  | [], _ => true
  | (key, value) :: rest, ys =>
      ys.any (fun entry => key.same entry.1 && value.same entry.2) && sameEntries rest ys

end

def entries? : Value → Option (List (Value × Value))
  | .mapping entries => some entries
  | .tagged _ value => value.entries?
  | _ => none

/-- A text, looking through tags. -/
def string? : Value → Option String
  | .scalar (.string text) => some text
  | .tagged _ value => value.string?
  | _ => none

def lookup (entries : List (Value × Value)) (key : String) : Option Value :=
  (entries.find? fun entry => entry.1.same (.scalar (.string key))).map (·.2)

def distinct : List Value → Bool
  | [] => true
  | key :: rest => !rest.any (key.same ·) && distinct rest

end Value

mutual

/-- The nodes that carry an anchor, in the order of the text. -/
def Node.anchored : Node → List (Nat × Node)
  | .alias _ => []
  | .scalar marks text plain =>
      marks.anchor.toList.map fun n => (n, .scalar marks text plain)
  | .sequence marks items =>
      (marks.anchor.toList.map fun n => (n, .sequence marks items)) ++ Node.anchoredItems items
  | .mapping marks entries =>
      (marks.anchor.toList.map fun n => (n, .mapping marks entries)) ++
        Node.anchoredEntries entries

def Node.anchoredItems : List Node → List (Nat × Node)
  | [] => []
  | item :: rest => item.anchored ++ Node.anchoredItems rest

def Node.anchoredEntries : List (Node × Node) → List (Nat × Node)
  | [] => []
  | (key, value) :: rest => key.anchored ++ value.anchored ++ Node.anchoredEntries rest

end

mutual

/-- The beginnings and ends of nodes. -/
def Node.size : Node → Nat
  | .alias _ => 1
  | .scalar _ _ _ => 1
  | .sequence _ items => 2 + Node.sizeOfItems items
  | .mapping _ entries => 2 + Node.sizeOfEntries entries

def Node.sizeOfItems : List Node → Nat
  | [] => 0
  | item :: rest => item.size + Node.sizeOfItems rest

def Node.sizeOfEntries : List (Node × Node) → Nat
  | [] => 0
  | (key, value) :: rest => key.size + value.size + Node.sizeOfEntries rest

end

namespace Node

/-- The document's own tag of a node: what follows the mark. An empty one is refused. -/
def ownTag? (tag : Option String) : Option (Option String) :=
  match tag.map String.toList with
  | some ['!'] => none
  | some ('!' :: name) => some (some (String.ofList name))
  | _ => some none

/-- What a scalar stands for. A tag that has been read already does not count again. -/
def scalar? (tag : Option String) (tagRead : Bool) (text : String) (plain : Bool) :
    Option Scalar :=
  match tag, tagRead with
  | some tag, false => Scalar.ofTagged? tag text
  | _, _ => if plain then Scalar.ofPlain? text else some (.string text)

/-- How often an alias may still be followed. -/
abbrev Following := StateT Nat Option

/-- Follows an alias, which takes one from the count. -/
def follow (targets : List (Nat × Node)) (anchor : Nat) : Following Node := do
  match ← get with
  | 0 => failure
  | left + 1 =>
      set left
      match targets.lookup anchor with
      | some node => return node
      | none => failure

/-- The value of a node. Collections nest at most `depth` deep. Under a tag of the document's own
the tags of keys do not count. -/
def value? (targets : List (Nat × Node)) : (depth : Nat) → (tagRead : Bool) → Node → Following Value
  | depth, tagRead, node => do
      let (node, tagRead) ← match node with
        | .alias anchor => do
            let node ← follow targets anchor
            pure (node, false)
        | node => pure (node, tagRead)
      let under (tag : Option String) (content : Bool → Following Value) : Following Value := do
        match ← (if tagRead then some none else ownTag? tag : Option (Option String)) with
        | some name => return .tagged name (← content true)
        | none => content tagRead
      match depth, node with
      | _, .scalar marks text plain =>
          under marks.tag fun tagRead => do
            return .scalar (← scalar? marks.tag tagRead text plain)
      | depth + 1, .sequence marks items =>
          under marks.tag fun _ => do
            return .sequence (← items.mapM (value? targets depth false))
      | depth + 1, .mapping marks entries =>
          under marks.tag fun tagRead => do
            let entries ← entries.mapM fun entry => do
              let key ← value? targets depth tagRead entry.1
              let value ← value? targets depth false entry.2
              return (key, value)
            if Value.distinct (entries.map (·.1)) then return .mapping entries else failure
      | _, _ => failure

end Node

/-- The value of a text with at most one document. Collections nest at most 128 deep, and aliases
are followed at most a hundred times per beginning or end of a node. -/
def Value.parse? (text : String) : Option Value := do
  let node ← Node.ofTokens? (← tokens? text)
  let (value, _) ← (node.value? node.anchored.reverse 128 false).run (100 * node.size)
  return value

end TopicBridge.Yaml
