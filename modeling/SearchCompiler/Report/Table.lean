import SearchCompiler.Text.Columns
import SearchCompiler.Text.Lines

/-!
Tables in boxes. Every column is as wide as its widest cell, with a space on both sides; a cell may
hold several lines, and then its row is as high as its highest cell.
-/

namespace SearchCompiler

structure Table where
  header : List String
  rows : List (List String)

namespace Table

/-- The lines of a cell, which only line feeds separate. -/
def cellLines (cell : String) : List String :=
  (Text.splitAtFeeds cell.toList).map String.ofList

def cellWidth (cell : String) : Nat :=
  ((cellLines cell).map Text.columns).foldl max 0

def widths (t : Table) : List Nat :=
  t.rows.foldl (fun ws row => ws.zipWith max (row.map cellWidth)) (t.header.map cellWidth)

/-- A border: its left end, what it is made of, its crossings and its right end. -/
def border (left : String) (line : Char) (cross right : String) (ws : List Nat) : String :=
  left ++ cross.intercalate (ws.map fun w => String.ofList (List.replicate (w + 2) line)) ++ right

def lineOfRow (ws : List Nat) (pieces : List String) : String :=
  "│" ++ "┆".intercalate ((ws.zip pieces).map fun c => " " ++ Text.padTo c.1 c.2 ++ " ") ++ "│"

def rowLines (ws : List Nat) (row : List String) : List String :=
  let cells := row.map cellLines
  -- Cells with fewer lines than the highest one are filled up with empty lines.
  let height := (cells.map List.length).foldl max 0
  (List.range height).map fun i => lineOfRow ws (cells.map fun lines => (lines[i]?).getD "")

/-- The table as lines, the last one without an ending. -/
def text (t : Table) : String :=
  let ws := t.widths
  "\n".intercalate
    ([border "┌" '─' "┬" "┐" ws] ++ rowLines ws t.header ++ [border "╞" '═' "╪" "╡" ws]
      ++ t.rows.flatMap (rowLines ws) ++ [border "└" '─' "┴" "┘" ws])

end Table

end SearchCompiler
