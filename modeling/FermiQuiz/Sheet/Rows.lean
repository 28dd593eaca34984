/-!
# Rows of a sheet

A sheet is text with a tab between the cells of a row. A row ends with its line; empty lines are
no rows. A cell that starts with a quote goes on to the next quote, over tabs and line ends; in
it two quotes stand for one, and what follows its closing quote is taken as it is.
-/

namespace FermiQuiz.Sheet

inductive Place where
  | rowStart
  /-- Before a cell that is not the first of its row. -/
  | cellStart
  /-- In a cell without quotes, or after the closing quote. -/
  | plain
  | quoted
  /-- After a quote that closes the cell unless a second one follows. -/
  | closing
  deriving DecidableEq, Repr

/-- What has been read: the current cell and the cells before it in its row, both backwards. -/
structure Reading where
  place : Place
  cell : List Char
  cells : List (List Char)

namespace Reading

def start : Reading := ⟨.rowStart, [], []⟩

def row (r : Reading) : List (List Char) := (r.cell.reverse :: r.cells).reverse

def push (r : Reading) (c : Char) : Reading := ⟨.plain, c :: r.cell, r.cells⟩

/-- The reader after a character outside quotes, and the row that it may end. -/
def outside (r : Reading) (c : Char) : Option (List (List Char)) × Reading :=
  if c = '\t' then (none, ⟨.cellStart, [], r.cell.reverse :: r.cells⟩)
  else if c = '\n' || c = '\r' then
    (if r.place = .rowStart then none else some r.row, start)
  else (none, r.push c)

def step (r : Reading) (c : Char) : Option (List (List Char)) × Reading :=
  match r.place with
  | .rowStart => if c = '"' then (none, { r with place := .quoted }) else r.outside c
  | .cellStart => if c = '"' then (none, { r with place := .quoted }) else r.outside c
  | .plain => r.outside c
  | .quoted =>
    if c = '"' then (none, { r with place := .closing })
    else (none, { r with cell := c :: r.cell })
  | .closing =>
    if c = '"' then (none, ⟨.quoted, c :: r.cell, r.cells⟩) else r.outside c

end Reading

/-- The rows after those already found, which are kept backwards. -/
def rowsFrom (r : Reading) (found : List (List (List Char))) : List Char → List (List (List Char))
  | [] => (if r.place = .rowStart then found else r.row :: found).reverse
  | c :: cs =>
    let (row, r) := r.step c
    rowsFrom r (row.toList ++ found) cs

/-- The rows of a sheet as lists of cells. A byte-order mark in front is no part of them. -/
def rows (text : String) : List (List String) :=
  let cs := match text.toList with
    | '\uFEFF' :: cs => cs
    | cs => cs
  (rowsFrom .start [] cs).map fun row => row.map String.ofList

end FermiQuiz.Sheet
