import TopicBridge.Text.Hex
import TopicBridge.Yaml.Cursor

/-! The ways to write a scalar: between quotes, plainly, or as a block of indented lines. Each
reader starts behind the indicator and returns the text with its lines folded. -/
namespace TopicBridge.Yaml

/-- What stands between two words of a scalar: the blanks before the first line end, and the line
ends. -/
structure Gap where
  blanks : List Char
  breaks : List Char

namespace Gap

/-- One line end becomes a space, and of several the first one is left out. -/
def folded (gap : Gap) : List Char :=
  match gap.breaks with
  | [] => gap.blanks
  | ['\n'] => [' ']
  | '\n' :: more => more
  | breaks => breaks

/-- Reads a gap. On a new line a tabulator left of column `floor` is refused. -/
def read? (floor : Nat) (chars : List Char) (line column : Nat) (gap : Gap) :
    Option (Gap × Cursor) :=
  match chars with
  | [] => some (gap, ⟨[], line, column⟩)
  | c :: rest =>
      if isBreak c then
        read? floor rest (line + 1) 0 ⟨gap.blanks, gap.breaks ++ [c]⟩
      else if isBlank c then
        if gap.breaks.isEmpty then
          read? floor rest line (column + 1) ⟨gap.blanks ++ [c], gap.breaks⟩
        else if c == '\t' && column < floor then none
        else read? floor rest line (column + 1) gap
      else some (gap, ⟨c :: rest, line, column⟩)

end Gap

def Cursor.gap? (cursor : Cursor) (floor : Nat) : Option (Gap × Cursor) :=
  Gap.read? floor cursor.rest cursor.line cursor.column ⟨[], []⟩

def escape? : Char → Option Char
  | '0' => some '\u0000'
  | 'a' => some '\u0007'
  | 'b' => some '\u0008'
  | 't' => some '\t'
  | '\t' => some '\t'
  | 'n' => some '\n'
  | 'v' => some '\u000b'
  | 'f' => some '\u000c'
  | 'r' => some '\r'
  | 'e' => some '\u001b'
  | ' ' => some ' '
  | '"' => some '"'
  | '/' => some '/'
  | '\\' => some '\\'
  | 'N' => some '\u0085'
  | '_' => some '\u00a0'
  | 'L' => some '\u2028'
  | 'P' => some '\u2029'
  | _ => none

def coded? (digits : List Char) : Option Char := do
  let code ← digits.foldlM (fun n c => (Hex.value? c).map (n * 16 + ·)) 0
  if code < 0xD800 ∨ (0xE000 ≤ code ∧ code ≤ 0x10FFFF) then some (Char.ofNat code) else none

/-- A word between quotes, what follows it, and whether a backslash hides the line end there. -/
structure QuotedWord where
  text : List Char
  rest : List Char
  hidesBreak : Bool := false

def QuotedWord.cons (c : Char) (word : QuotedWord) : QuotedWord :=
  ⟨c :: word.text, word.rest, word.hidesBreak⟩

/-- A word between single quotes, where two of them stand for one. -/
def singleWord : List Char → QuotedWord
  | [] => ⟨[], [], false⟩
  | '\'' :: '\'' :: rest => (singleWord rest).cons '\''
  | '\'' :: rest => ⟨[], '\'' :: rest, false⟩
  | c :: rest => if endsWord (some c) then ⟨[], c :: rest, false⟩ else (singleWord rest).cons c

def doubleWord? : List Char → Option QuotedWord
  | [] => some ⟨[], [], false⟩
  | '"' :: rest => some ⟨[], '"' :: rest, false⟩
  | '\\' :: 'x' :: a :: b :: rest => do
      let c ← coded? [a, b]
      return (← doubleWord? rest).cons c
  | '\\' :: 'u' :: a :: b :: c :: d :: rest => do
      let c ← coded? [a, b, c, d]
      return (← doubleWord? rest).cons c
  | '\\' :: 'U' :: a :: b :: c :: d :: e :: f :: g :: h :: rest => do
      let c ← coded? [a, b, c, d, e, f, g, h]
      return (← doubleWord? rest).cons c
  | '\\' :: c :: rest =>
      if isBreak c then some ⟨[], c :: rest, true⟩
      else do
        let c ← escape? c
        return (← doubleWord? rest).cons c
  | ['\\'] => none
  | c :: rest =>
      if endsWord (some c) then some ⟨[], c :: rest, false⟩
      else (doubleWord? rest).map (·.cons c)

/-- A scalar between quotes, up to the closing one. No line of it may look like the start or the
end of a document. -/
def quoted? (quote : Char) : Nat → Cursor → Option (List Char × Cursor)
  | 0, _ => none
  | fuel + 1, cursor =>
      if cursor.startsMark then none
      else do
        let word ← if quote == '"' then doubleWord? cursor.rest else some (singleWord cursor.rest)
        let cursor := cursor.upTo word.rest
        let cursor := if word.hidesBreak then cursor.nextLine else cursor
        let next ← cursor.rest.head?
        if next == quote then return (word.text, cursor.skip 1)
        else
          let (gap, cursor) ← cursor.gap? 0
          let (more, cursor) ← quoted? quote fuel cursor
          let between := if word.hidesBreak then gap.breaks else gap.folded
          return (word.text ++ between ++ more, cursor)

/-- A quoted scalar. Every word and gap uses up a character, so the fuel lasts. -/
def Cursor.quoted? (cursor : Cursor) (quote : Char) : Option (List Char × Cursor) :=
  Yaml.quoted? quote (cursor.rest.length + 1) cursor

def isBracketIndicator (c : Char) : Bool := c == ',' || c == '[' || c == ']' || c == '{' || c == '}'

/-- A plain word and what follows it. It ends before a colon that ends a key. -/
def plainWord? (bracketed : Bool) : List Char → Option (List Char × List Char)
  | [] => some ([], [])
  | c :: rest =>
      if endsWord (some c) then some ([], c :: rest)
      else if bracketed && c == ':' && rest.head?.any (fun d => isBracketIndicator d || d == '?') then
        none
      else if (c == ':' && endsWord rest.head?) || (bracketed && isBracketIndicator c) then
        some ([], c :: rest)
      else (plainWord? bracketed rest).map fun (word, rest) => (c :: word, rest)

/-- A plain scalar: its text, whether the place reached is on a new line, and that place. The
scalar goes on over lines that reach column `floor`; a comment or a document's start or end stops
it. `between` is the gap before the next word. -/
def plain? (bracketed : Bool) (floor : Nat) :
    Nat → Cursor → Gap → Option (List Char × Bool × Cursor)
  | 0, _, _ => none
  | fuel + 1, cursor, between => do
      let stop := ([], !between.breaks.isEmpty, cursor)
      if cursor.startsMark || cursor.rest.head? == some '#' then return stop
      let (word, rest) ← plainWord? bracketed cursor.rest
      if word.isEmpty then return stop
      let cursor := cursor.upTo rest
      let (gap, after) ← cursor.gap? floor
      let text := between.folded ++ word
      if gap.blanks.isEmpty && gap.breaks.isEmpty then return (text, false, cursor)
      if !bracketed && after.column < floor then return (text, !gap.breaks.isEmpty, after)
      let (more, onNewLine, cursor) ← plain? bracketed floor fuel after gap
      return (text ++ more, onNewLine, cursor)

/-- A plain scalar. Every round uses up a word, so the fuel lasts. -/
def Cursor.plain? (cursor : Cursor) (bracketed : Bool) (floor : Nat) :
    Option (List Char × Bool × Cursor) :=
  Yaml.plain? bracketed floor (cursor.rest.length + 1) cursor ⟨[], []⟩

/-- What becomes of the line ends behind the last line of a block. -/
inductive Chomping where
  | strip
  | clip
  | keep
  deriving DecidableEq, Repr

def chomping? : Char → Option Chomping
  | '-' => some .strip
  | '+' => some .keep
  | _ => none

/-- The header of a block: the chomping, and the indentation if it is given. The two come in either
order, and the indentation is not zero. -/
def blockHeader? (chars : List Char) : Option (Chomping × Option Nat × List Char) :=
  let digit? (c : Char) : Option Nat := if c.isDigit then some (c.toNat - '0'.toNat) else none
  let positive (n : Nat) (found : Chomping × Option Nat × List Char) :=
    if n = 0 then none else some found
  match chars with
  | a :: b :: rest =>
      match chomping? a, digit? a, chomping? b, digit? b with
      | some chomping, _, _, some n => positive n (chomping, some n, rest)
      | some chomping, _, _, none => some (chomping, none, b :: rest)
      | none, some n, some chomping, _ => positive n (chomping, some n, rest)
      | none, some n, none, _ => positive n (.clip, some n, b :: rest)
      | none, none, _, _ => some (.clip, none, a :: b :: rest)
  | [a] =>
      match chomping? a, digit? a with
      | some chomping, _ => some (chomping, none, [])
      | none, some n => positive n (.clip, some n, [])
      | none, none => some (.clip, none, [a])
  | [] => some (.clip, none, [])

/-- What stands before a line of a block: the line ends of empty lines, the widest indentation
seen, and the place reached. Without a known indentation all spaces count as such. A tabulator in
its stead is refused. -/
def blockIndent? (indent : Option Nat) (chars : List Char) (line column widest : Nat)
    (breaks : List Char) : Option (List Char × Nat × Cursor) :=
  let inside := indent.all (column < ·)
  match chars with
  | [] => some (breaks, max widest column, ⟨[], line, column⟩)
  | c :: rest =>
      if c == ' ' && inside then blockIndent? indent rest line (column + 1) widest breaks
      else if c == '\t' && inside then none
      else if isBreak c then
        blockIndent? indent rest (line + 1) 0 (max widest column) (breaks ++ [c])
      else some (breaks, max widest column, ⟨c :: rest, line, column⟩)

/-- The lines of a block before its end is chomped: the text, the last line end, the line ends of
the empty lines behind it, and the place reached. -/
structure BlockLines where
  text : List Char
  lastBreak : List Char
  breaks : List Char
  cursor : Cursor

/-- Reads the lines at column `indent`. Where lines are folded, the end of a line between two lines
that begin with no blank becomes a space, or nothing before empty lines. -/
def blockLines? (folds : Bool) (indent : Nat) :
    Nat → (afterBlank : Bool) → BlockLines → Option BlockLines
  | 0, _, _ => none
  | fuel + 1, afterBlank, lines =>
      if lines.cursor.column ≠ indent ∨ lines.cursor.rest.isEmpty then some lines
      else do
        let startsBlank := lines.cursor.rest.head?.any isBlank
        let joined :=
          if folds && lines.lastBreak == ['\n'] && !afterBlank && !startsBlank then
            if lines.breaks.isEmpty then [' '] else []
          else lines.lastBreak
        let content := lines.cursor.rest.takeWhile fun c => !isBreak c
        let ending := lines.cursor.skip content.length
        let lastBreak := ending.rest.take 1
        let next := if lastBreak.isEmpty then ending else ending.nextLine
        let (breaks, _, cursor) ← blockIndent? (some indent) next.rest next.line next.column 0 []
        blockLines? folds indent fuel startsBlank
          ⟨lines.text ++ joined ++ lines.breaks ++ content, lastBreak, breaks, cursor⟩

/-- A block scalar behind its indicator. `floor` is the least column of its lines. Every round
uses up a line, so the fuel lasts. -/
def Cursor.block? (cursor : Cursor) (folds : Bool) (floor : Nat) : Option (List Char × Cursor) := do
  let (chomping, given, rest) ← blockHeader? cursor.rest
  let cursor ← (cursor.upTo rest).endLine?
  let given := given.map (floor - 1 + ·)
  let (breaks, widest, cursor) ← blockIndent? given cursor.rest cursor.line cursor.column 0 []
  let indent := given.getD (max widest (max floor 1))
  let lines ← blockLines? folds indent (cursor.rest.length + 1) false ⟨[], [], breaks, cursor⟩
  let tail := match chomping with
    | .strip => []
    | .clip => lines.lastBreak
    | .keep => lines.lastBreak ++ lines.breaks
  return (lines.text ++ tail, lines.cursor)

end TopicBridge.Yaml
