/-! A place in a text that is read line by line, and the kinds of characters that structure it. -/
namespace TopicBridge.Yaml

def isBreak (c : Char) : Bool := c == '\n' || c == '\u2028' || c == '\u2029'

def isBlank (c : Char) : Bool := c == ' ' || c == '\t'

/-- Whether a word ends before `next`: a blank, a line end or the end of the text. -/
def endsWord (next : Option Char) : Bool := next.all fun c => isBlank c || isBreak c

def isNameChar (c : Char) : Bool := c.isAlphanum || c == '-' || c == '_'

/-- Whether a text may hold the character: controls are left out. -/
def isAllowed (c : Char) : Bool :=
  let n := c.toNat
  n == 0x09 || n == 0x0A || n == 0x0D || (0x20 ≤ n && n ≤ 0x7E) || n == 0x85
    || (0xA0 ≤ n && n ≤ 0xFFFD) || 0x10000 ≤ n

def isOrderMark (c : Char) : Bool := c == '\ufeff'

/-- Writes every line end as one line feed. The two separators stay as they are. -/
def lineFeeds : List Char → List Char
  | '\r' :: '\n' :: rest => '\n' :: lineFeeds rest
  | '\r' :: rest => '\n' :: lineFeeds rest
  | '\u0085' :: rest => '\n' :: lineFeeds rest
  | c :: rest => c :: lineFeeds rest
  | [] => []

/-- The text ahead, and where its first character stands. -/
structure Cursor where
  rest : List Char
  line : Nat
  column : Nat

namespace Cursor

def start? (text : String) : Option Cursor :=
  if text.toList.all isAllowed then some ⟨lineFeeds text.toList, 0, 0⟩ else none

/-- The place where `rest` begins, on the same line. -/
def upTo (cursor : Cursor) (rest : List Char) : Cursor :=
  ⟨rest, cursor.line, cursor.column + (cursor.rest.length - rest.length)⟩

def skip (cursor : Cursor) (n : Nat) : Cursor :=
  ⟨cursor.rest.drop n, cursor.line, cursor.column + n⟩

def skipWhile (cursor : Cursor) (p : Char → Bool) : Cursor := cursor.upTo (cursor.rest.dropWhile p)

def nextLine (cursor : Cursor) : Cursor := ⟨cursor.rest.drop 1, cursor.line + 1, 0⟩

/-- Passes over blanks and a comment up to the end of the line. Anything else is refused. -/
def endLine? (cursor : Cursor) : Option Cursor :=
  let cursor := cursor.skipWhile isBlank
  let cursor := match cursor.rest with
    | '#' :: _ => cursor.skipWhile fun c => !isBreak c
    | _ => cursor
  match cursor.rest with
  | [] => some cursor
  | c :: _ => if isBreak c then some cursor.nextLine else none

/-- Whether a line begins here with three times `c` and nothing else in that word. -/
def startsLine (cursor : Cursor) (c : Char) : Bool :=
  cursor.column == 0 && cursor.rest.take 3 == [c, c, c] && endsWord (cursor.rest.drop 3).head?

/-- Whether a line begins here that starts or ends a document. -/
def startsMark (cursor : Cursor) : Bool := cursor.startsLine '-' || cursor.startsLine '.'

end Cursor

/-- Passes over blanks, comments and line ends. A tabulator counts as a blank inside brackets and
where no key may begin, a byte order mark does at the beginning of a line; outside brackets a key
may begin on every new line. Returns whether a key may begin at the place reached. -/
def Cursor.passSpace (bracketed : Bool) (chars : List Char) (line column : Nat)
    (keyAllowed comment : Bool) : Bool × Cursor :=
  match chars with
  | [] => (keyAllowed, ⟨[], line, column⟩)
  | c :: rest =>
      if isBreak c then passSpace bracketed rest (line + 1) 0 (keyAllowed || !bracketed) false
      else if comment || c == '#' then
        passSpace bracketed rest line (column + 1) keyAllowed true
      else if c == ' ' || (c == '\t' && (bracketed || !keyAllowed)) ||
          (isOrderMark c && column == 0) then
        passSpace bracketed rest line (column + 1) keyAllowed false
      else (keyAllowed, ⟨c :: rest, line, column⟩)

end TopicBridge.Yaml
