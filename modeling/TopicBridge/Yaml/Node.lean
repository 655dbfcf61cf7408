import TopicBridge.Yaml.Token

/-! The tree that tokens describe. Nodes may carry a tag and an anchor, and an alias stands for the
node with its anchor. -/
namespace TopicBridge.Yaml

/-- What a node carries besides its content. Anchors are numbered. -/
structure NodeMarks where
  anchor : Option Nat := none
  tag : Option String := none
  deriving Repr

inductive Node where
  | alias (anchor : Nat)
  | scalar (marks : NodeMarks) (text : String) (plain : Bool)
  | sequence (marks : NodeMarks) (items : List Node)
  | mapping (marks : NodeMarks) (entries : List (Node × Node))

namespace Node

def empty : Node := .scalar {} "" true

end Node

/-- Where the reading of a document stands: the tokens ahead, what the handles of tags stand for,
and the numbers of the anchors so far. -/
structure Outline where
  tokens : List Token
  handles : List (String × String) := []
  anchors : List (String × Nat) := []

namespace Outline

def next? (outline : Outline) : Option Token := outline.tokens.head?

def rest (outline : Outline) : Outline := { outline with tokens := outline.tokens.drop 1 }

/-- Numbers an anchor by how many names there are. A name that comes again takes a new number. -/
def anchor (outline : Outline) (name : String) : Nat × Outline :=
  let n := outline.anchors.length
  (n, { outline with anchors := (name, n) :: outline.anchors.filter (·.1 ≠ name) })

/-- What a handle stands for, unless a directive says otherwise. -/
def defaultHandles : List (String × String) := [("!", "!"), ("!!", "tag:yaml.org,2002:")]

def expand? (outline : Outline) (handle suffix : String) : Option String :=
  if handle.isEmpty then some suffix
  else ((outline.handles ++ defaultHandles).lookup handle).map (· ++ suffix)

/-- An anchor and a tag before a node, each at most once and in either order. -/
def marks (outline : Outline) : Option String × Option (String × String) × Outline :=
  match outline.tokens with
  | .anchor name :: .tag handle suffix :: rest =>
      (some name, some (handle, suffix), { outline with tokens := rest })
  | .tag handle suffix :: .anchor name :: rest =>
      (some name, some (handle, suffix), { outline with tokens := rest })
  | .anchor name :: rest => (some name, none, { outline with tokens := rest })
  | .tag handle suffix :: rest => (none, some (handle, suffix), { outline with tokens := rest })
  | _ => (none, none, outline)

/-- Where a node may stand: alone within brackets or lines, or behind a key or a value, where the
items of a sequence need no deeper indentation. -/
inductive Place where
  | bracketed
  | block
  | entry
  deriving DecidableEq, Repr

/-- Whether an entry of a mapping of lines ends before this token. -/
def endsEntry : Option Token → Bool
  | some .key => true
  | some .value => true
  | some .blockEnd => true
  | _ => false

def endsPart (closing : Token) : Option Token → Bool
  | some token => token == .comma || token == closing
  | none => false

mutual

/-- A node with its marks. Marks alone stand for an empty scalar. -/
def node? : Nat → Place → Outline → Option (Node × Outline)
  | 0, _, _ => none
  | fuel + 1, place, outline =>
      match outline.next? with
      | some (.alias name) => do
          let n ← outline.anchors.lookup name
          return (.alias n, outline.rest)
      | _ => do
          let (anchor, tag, outline) := outline.marks
          let tag ← match tag with
            | none => some none
            | some (handle, suffix) => (outline.expand? handle suffix).map some
          let (anchor, named) := match anchor with
            | none => (none, outline)
            | some name =>
                let (n, named) := outline.anchor name
                (some n, named)
          let marks : NodeMarks := ⟨anchor, tag⟩
          match named.next?, place with
          | some (.scalar text plain), _ =>
              let tag := tag.filter (· ≠ "!")
              return (.scalar ⟨anchor, tag⟩ text plain, named.rest)
          | some .item, .entry => do
              let (items, outline) ← inlineItems? fuel named
              return (.sequence marks items, outline)
          | some .bracket, _ => do
              let (items, outline) ← bracketItems? fuel true named.rest
              return (.sequence marks items, outline)
          | some .brace, _ => do
              let (entries, outline) ← braceEntries? fuel true named.rest
              return (.mapping marks entries, outline)
          | token, place =>
              if place ≠ .bracketed ∧ token = some .blockSequence then do
                let (items, outline) ← blockItems? fuel named.rest
                return (.sequence marks items, outline)
              else if place ≠ .bracketed ∧ token = some .blockMapping then do
                let (entries, outline) ← blockEntries? fuel named.rest
                return (.mapping marks entries, outline)
              else if anchor.isSome || tag.isSome then
                return (.scalar marks "" true, named)
              else none

/-- A node, or an empty scalar where the part ends at once. -/
def nodeUnless? (fuel : Nat) (ended : Bool) (place : Place) (outline : Outline) :
    Option (Node × Outline) :=
  match fuel with
  | 0 => none
  | fuel + 1 => if ended then some (.empty, outline) else node? fuel place outline

def blockItems? : Nat → Outline → Option (List Node × Outline)
  | 0, _ => none
  | fuel + 1, outline =>
      match outline.next? with
      | some .item => do
          let outline := outline.rest
          let ended := outline.next? == some .item || outline.next? == some .blockEnd
          let (item, outline) ← nodeUnless? fuel ended .block outline
          let (more, outline) ← blockItems? fuel outline
          return (item :: more, outline)
      | some .blockEnd => some ([], outline.rest)
      | _ => none

/-- The items of a sequence as deep as its key. It has no end of its own. -/
def inlineItems? : Nat → Outline → Option (List Node × Outline)
  | 0, _ => none
  | fuel + 1, outline =>
      match outline.next? with
      | some .item => do
          let outline := outline.rest
          let ended := outline.next? == some .item || endsEntry outline.next?
          let (item, outline) ← nodeUnless? fuel ended .block outline
          let (more, outline) ← inlineItems? fuel outline
          return (item :: more, outline)
      | _ => some ([], outline)

def blockEntries? : Nat → Outline → Option (List (Node × Node) × Outline)
  | 0, _ => none
  | fuel + 1, outline =>
      match outline.next? with
      | some .key => do
          let outline := outline.rest
          let (key, outline) ← nodeUnless? fuel (endsEntry outline.next?) .entry outline
          let (value, outline) ← match outline.next? with
            | some .value =>
                let outline := outline.rest
                nodeUnless? fuel (endsEntry outline.next?) .entry outline
            | _ => some (.empty, outline)
          let (more, outline) ← blockEntries? fuel outline
          return ((key, value) :: more, outline)
      | some .blockEnd => some ([], outline.rest)
      | _ => none

/-- The items of a sequence in brackets. An item may be a mapping of one entry without braces. Where
such an entry has no key, the token in its place is passed over. -/
def bracketItems? : Nat → (first : Bool) → Outline → Option (List Node × Outline)
  | 0, _, _ => none
  | fuel + 1, first, outline =>
      if outline.next? = some .bracketEnd then some ([], outline.rest)
      else do
        let outline ←
          if first then some outline
          else if outline.next? = some .comma then some outline.rest else none
        if outline.next? = some .bracketEnd then return ([], outline.rest)
        let (item, outline) ←
          if outline.next? = some .key then do
            let outline := outline.rest
            let ended :=
              outline.next? == some .value || endsPart .bracketEnd outline.next?
            let (key, outline) ←
              if ended then some (.empty, outline.rest) else node? fuel .bracketed outline
            let (value, outline) ← part? fuel .bracketEnd outline
            some (.mapping {} [(key, value)], outline)
          else node? fuel .bracketed outline
        let (more, outline) ← bracketItems? fuel false outline
        return (item :: more, outline)

/-- The entries of a mapping in braces. Without a colon the value is empty. -/
def braceEntries? : Nat → (first : Bool) → Outline → Option (List (Node × Node) × Outline)
  | 0, _, _ => none
  | fuel + 1, first, outline =>
      if outline.next? = some .braceEnd then some ([], outline.rest)
      else do
        let outline ←
          if first then some outline
          else if outline.next? = some .comma then some outline.rest else none
        if outline.next? = some .braceEnd then return ([], outline.rest)
        let (entry, outline) ←
          if outline.next? = some .key then do
            let outline := outline.rest
            let ended := outline.next? == some .value || endsPart .braceEnd outline.next?
            let (key, outline) ← nodeUnless? fuel ended .bracketed outline
            let (value, outline) ← part? fuel .braceEnd outline
            some ((key, value), outline)
          else do
            let (key, outline) ← node? fuel .bracketed outline
            some ((key, Node.empty), outline)
        let (more, outline) ← braceEntries? fuel false outline
        return (entry :: more, outline)

/-- A value behind its colon, or an empty scalar if there is none. -/
def part? (fuel : Nat) (closing : Token) (outline : Outline) : Option (Node × Outline) :=
  match fuel with
  | 0 => none
  | fuel + 1 =>
      if outline.next? = some .value then
        let outline := outline.rest
        nodeUnless? fuel (endsPart closing outline.next?) .bracketed outline
      else some (.empty, outline)

end

def directives? : (versioned : Bool) → List (String × String) → List Token →
    Option (List (String × String) × List Token)
  | versioned, handles, .version major minor :: rest =>
      if versioned || major ≠ 1 || (minor ≠ 1 && minor ≠ 2) then none
      else directives? true handles rest
  | versioned, handles, .tagHandle handle expansion :: rest =>
      if handles.any (·.1 == handle) then none
      else directives? versioned (handles ++ [(handle, expansion)]) rest
  | _, handles, rest => some (handles, rest)

def isDirective : Token → Bool
  | .version _ _ => true
  | .tagHandle _ _ => true
  | _ => false

/-- The start of the document and its directives, if they are written. -/
def begin? (tokens : List Token) : Option (Bool × Outline) :=
  match tokens with
  | [] => some (false, ⟨[], [], []⟩)
  | first :: _ =>
      if first == .documentStart || isDirective first then do
        let (handles, rest) ← directives? false [] tokens
        match rest with
        | .documentStart :: rest => return (true, ⟨rest, handles, []⟩)
        | _ => none
      else some (false, ⟨tokens, [], []⟩)

def hasNoContent (tokens : List Token) : Bool :=
  tokens.head?.all fun token => isDirective token || token == .documentStart || token == .documentEnd

end Outline

/-- The tree of the only document of a text. Every step into a part uses up a token or follows one
that did, so the fuel lasts. -/
def Node.ofTokens? (tokens : List Token) : Option Node := do
  let (explicit, outline) ← Outline.begin? tokens
  let fuel := 3 * tokens.length + 3
  let (node, outline) ←
    if tokens.isEmpty || (explicit && Outline.hasNoContent outline.tokens) then
      some (.empty, outline)
    else outline.node? fuel .block
  if outline.tokens.all (· == .documentEnd) then some node else none

end TopicBridge.Yaml
