import FermiQuiz.Text.Blank

/-!
# Tables in text

A table drawn with lines around its cells. Every column is as wide as its widest line; a cell with
line ends takes several lines.
-/

namespace FermiQuiz.Table

abbrev Cell := List (List Char)

def cellOf (s : String) : Cell := Text.splitAt '\n' s.toList

def cellWidth (cell : Cell) : Nat := (cell.map List.length).foldl max 0

def widths : List (List Cell) → List Nat
  | [] => []
  | [row] => row.map cellWidth
  | row :: rows => List.zipWith max (row.map cellWidth) (widths rows)

def padded (width : Nat) (line : List Char) : List Char :=
  ' ' :: line ++ List.replicate (width - line.length + 1) ' '

def bordered (opening between closing : Char) (pieces : List (List Char)) : List Char :=
  opening :: (pieces.intersperse [between]).flatten ++ [closing]

def rule (opening across between closing : Char) (ws : List Nat) : List Char :=
  bordered opening between closing (ws.map fun w => List.replicate (w + 2) across)

def rowHeight (row : List Cell) : Nat := (row.map List.length).foldl max 0

def rowLines (ws : List Nat) (row : List Cell) : List (List Char) :=
  (List.range (rowHeight row)).map fun i =>
    bordered '|' '|' '|' (List.zipWith (fun w cell => padded w (cell[i]?.getD [])) ws row)

/-- The lines of rows, with a rule between any two. -/
def bodyLines (ws : List Nat) : List (List Cell) → List (List Char)
  | [] => []
  | [row] => rowLines ws row
  | row :: rows => rowLines ws row ++ rule '|' '-' '+' '|' ws :: bodyLines ws rows

def draw (header : List String) (rows : List (List String)) : String :=
  let headerCells := header.map cellOf
  let cells := rows.map (·.map cellOf)
  let ws := widths (headerCells :: cells)
  let edge := rule '+' '-' '+' '+' ws
  let top := edge :: rowLines ws headerCells ++ [rule '+' '=' '=' '+' ws]
  let lines := top ++ bodyLines ws cells ++ [edge]
  String.intercalate "\n" (lines.map String.ofList)

end FermiQuiz.Table
