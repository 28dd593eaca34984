import FermiQuiz.Question
import FermiQuiz.Store.Failure
import FermiQuiz.Sheet.Rows
import FermiQuiz.Sheet.Entry
import FermiQuiz.Text.Lowercase

/-!
# Importing facts from a sheet

The first row of a sheet names its columns. The column `thing` says what a row is about, the
column `tags` is passed over, and the cells of every other column with a name hold measurements
of the thing, with commas between them. `importFacts` reads each into a fact or, if it cannot be
read, lists it as broken; `carryOver` keeps what was curated before.
-/

namespace FermiQuiz

namespace Sheet

structure Piece where
  thing : String
  measurement : String
  text : String
  deriving DecidableEq, Repr

/-- The texts between the commas of a cell, without outer blanks and without empty ones. -/
def cellTexts (cell : String) : List String :=
  ((Text.splitAt ',' cell.toList).map fun cs => String.ofList (Text.trimChars cs)).filter (· != "")

def isMeasured (thingColumn column : Nat) (name : String) : Bool :=
  column != thingColumn && name != "tags" && name != ""

/-- The measurements in the cells of a row from a column on; `names` are the names of the columns
from there on. -/
def rowPieces (thingColumn : Nat) (thing : String) :
    (column : Nat) → (names : List String) → (cells : List String) → List Piece
  | column, name :: names, cell :: cells =>
    (if isMeasured thingColumn column name then
      (cellTexts cell).map fun text => ⟨thing, name, text⟩
    else []) ++ rowPieces thingColumn thing (column + 1) names cells
  | _, _, _ => []

/-- The thing that a row is about, unless its cell is blank or missing. -/
def rowThing? (thingColumn : Nat) (cells : List String) : Option String :=
  match (cells[thingColumn]?).map Text.trim with
  | none => none
  | some thing => if thing = "" then none else some thing

/-- The measurements of a sheet with its columns named, in order of rows, columns and cells. -/
def pieces (names : List String) (thingColumn : Nat) (rows : List (List String)) : List Piece :=
  rows.flatMap fun cells =>
    match rowThing? thingColumn cells with
    | none => []
    | some thing => rowPieces thingColumn thing 0 names cells

def standardName (thing measurement specifier : String) : String :=
  (if specifier = "" then measurement else specifier) ++ " of " ++ thing

def Piece.fact? (stamp : String) (p : Piece) : Option Fact :=
  (Entry.read? p.text).map fun entry => {
    quantity := entry.quantity
    name := standardName p.thing p.measurement entry.specifier
    measurement := p.measurement
    thing := p.thing
    specifier := entry.specifier
    note := entry.note
    generated := stamp }

/-- The column names of a sheet and its other rows; a sheet without rows has no columns. -/
def columns (text : String) : List String × List (List String) :=
  match rows text with
  | [] => ([], [])
  | header :: rest => (header.map fun name => Text.lower (Text.trim name), rest)

end Sheet

structure Imported where
  facts : List Fact
  broken : List Sheet.Piece

/-- The facts of a sheet, which has to have a column of things. -/
def importFacts (stamp text : String) : Except Failure Imported :=
  let (names, rows) := Sheet.columns text
  match names.findIdx? (· == "thing") with
  | none => .error ⟨[], .message "values sheet has no 'thing' column"⟩
  | some thingColumn =>
    let pieces := Sheet.pieces names thingColumn rows
    .ok {
      facts := pieces.filterMap (Sheet.Piece.fact? stamp)
      broken := pieces.filter fun p => (p.fact? stamp).isNone }

/-! ### Curation -/

/-- A fact with what was curated in an older one: its quality and the time it was read, and its
name and image unless they are empty. -/
def Fact.curatedBy (new old : Fact) : Fact :=
  { new with
    name := if old.name = "" then new.name else old.name
    quality := old.quality
    generated := old.generated
    image := if old.image = "" then new.image else old.image }

def lastWithKey? (facts : List Fact) (key : FactKey) : Option Fact :=
  facts.reverse.find? (·.key == key)

/-- The facts with what was curated in those of `existing` about the same. -/
def carryOver (existing facts : List Fact) : List Fact :=
  facts.map fun f =>
    match lastWithKey? existing f.key with
    | none => f
    | some old => f.curatedBy old

def carriedCount (existing facts : List Fact) : Nat :=
  facts.countP fun f => (lastWithKey? existing f.key).isSome

end FermiQuiz
