import OpHeaders.Text.Split
import OpHeaders.Text.Width

/-! Tables in the style of Markdown: the heading, a rule, and the rows. Cells stand to the
left in columns as wide as their widest line, with a space on either side; a cell of
several lines makes its row as high. Nothing is escaped. -/
namespace OpHeaders.Table

/-- A cell as its lines. -/
abbrev Cell := List (List Char)

def cell (s : String) : Cell := Text.split '\n' s.toList

def cellWidth (c : Cell) : Nat := (c.map Text.width).foldl max 0

/-- The width of every column: that of its widest cell. -/
def columnWidths (rows : List (List Cell)) : List Nat :=
  match rows with
  | [] => []
  | first :: more =>
    more.foldl (fun ws row => ws.zipWith max (row.map cellWidth)) (first.map cellWidth)

/-- A line filled up with spaces to a width. -/
def filled (width : Nat) (line : List Char) : List Char :=
  line ++ List.replicate (width - Text.width line) ' '

/-- One line through all columns. -/
def lineText (widths : List Nat) (parts : List (List Char)) : List Char :=
  '|' :: (widths.zipWith (fun w part => ' ' :: filled w part ++ " |".toList) parts).flatten

/-- A row is as high as its highest cell; the other cells are filled up with empty
lines. -/
def rowLines (widths : List Nat) (row : List Cell) : List (List Char) :=
  let height := (row.map List.length).foldl max 0
  (List.range height).map fun i => lineText widths (row.map fun c => c.getD i [])

def ruleLine (widths : List Nat) : List Char :=
  '|' :: widths.flatMap fun w => List.replicate (w + 2) '-' ++ ['|']

/-- The table of a heading and rows of as many cells. -/
def render (heading : List String) (rows : List (List String)) : String :=
  let heading := heading.map cell
  let rows := rows.map fun r => r.map cell
  let widths := columnWidths (heading :: rows)
  String.ofList <| ['\n'].intercalate <|
    rowLines widths heading ++ ruleLine widths :: rows.flatMap (rowLines widths)

example : render ["A", "B"] [["x", "long"], ["1\n2", ""]] =
    "| A | B    |\n|---|------|\n| x | long |\n| 1 |      |\n| 2 |      |" := by decide +kernel

end OpHeaders.Table
