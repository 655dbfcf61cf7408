import TopicBridge.Text.Split
import TopicBridge.Text.Width

/-! Tables drawn with lines. Columns are as wide as their widest cell, cells stand at the left
with a blank on both sides, and a cell of several lines makes its row as high. -/
namespace TopicBridge.Text

abbrev Cell := List (List Char)

def cell (s : String) : Cell := split '\n' s.toList

def padded (columns : Nat) (line : List Char) : List Char :=
  line ++ List.replicate (columns - width line) ' '

def widest (widths : List Nat) : Nat := widths.foldl max 0

def columnWidths (rows : List (List Cell)) (count : Nat) : List Nat :=
  (List.range count).map fun i => widest (rows.map fun row => widest ((row.getD i []).map width))

/-- A drawn line: its left end, what fills the columns, what stands between them, its right
end. -/
structure Rule where
  left : Char
  fill : Char
  between : Char
  right : Char

def Rule.top : Rule := ⟨'┌', '─', '┬', '┐'⟩
def Rule.header : Rule := ⟨'╞', '═', '╪', '╡'⟩
def Rule.middle : Rule := ⟨'├', '╌', '┼', '┤'⟩
def Rule.bottom : Rule := ⟨'└', '─', '┴', '┘'⟩

def Rule.draw (rule : Rule) (widths : List Nat) : List Char :=
  rule.left :: List.intercalate [rule.between]
    (widths.map fun n => List.replicate (n + 2) rule.fill) ++ [rule.right]

def rowLine (widths : List Nat) (lines : List (List Char)) : List Char :=
  '│' :: List.intercalate ['┆']
    ((widths.zip lines).map fun (n, line) => ' ' :: padded n line ++ [' ']) ++ ['│']

/-- The lines of a row, as many as its highest cell has. -/
def rowLines (widths : List Nat) (row : List Cell) : List (List Char) :=
  (List.range (widest (row.map List.length))).map fun i =>
    rowLine widths (row.map fun lines => lines.getD i [])

def grid (header : List String) (rows : List (List String)) : String :=
  let head := header.map cell
  let body := rows.map (·.map cell)
  let widths := columnWidths (head :: body) header.length
  let drawn := List.intercalate [Rule.middle.draw widths] (body.map (rowLines widths))
  let lines := [Rule.top.draw widths] ++ rowLines widths head ++ [Rule.header.draw widths] ++
    drawn ++ [Rule.bottom.draw widths]
  String.ofList (List.intercalate ['\n'] lines)

end TopicBridge.Text
