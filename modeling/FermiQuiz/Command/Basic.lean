import FermiQuiz.Command.Arguments
import FermiQuiz.Seed

/-!
# Commands

What a player can ask for on the command line. `Command.read?` gives no command for arguments
that are used wrongly.
-/

namespace FermiQuiz

inductive Occasion where
  | today
  | date (date : Date)
  | seed (seed : UInt64)

structure GameChoice where
  occasion : Occasion := .today
  dataset : Option String := none
  config : Option String := none

inductive Command where
  | daily (game : GameChoice) (reveal json : Bool)
  /-- Gives the hint after a guess, the first being attempt 1. -/
  | guess (number : Float) (attempt : UInt32) (game : GameChoice) (json : Bool)
  | validate (dataset config : Option String)
  | list (dataset config : Option String) (order : String)
  | importSheet (sheet : String) (facts config : Option String)
  | generate (facts questions : Option String) (count : Option Nat) (seed : Option UInt64)
      (derive : Bool) (config : Option String)
  | init

namespace Command

/-! ### Values of options -/

/-- The value of an option that may be left out, read by `read`. -/
def optional? {α : Type} (read : String → Option α) (given : Option String) : Option (Option α) :=
  match given with
  | none => some none
  | some s => (read s).map some

/-- A path; the empty text is none. -/
def path? (s : String) : Option String := if s.isEmpty then none else some s

def count? (s : String) : Option Nat := Number.readNat? (Nat.pow 2 64) s

def seed? (s : String) : Option UInt64 := (count? s).map Nat.toUInt64

/-- The number of a guess, at most 32 bits; zero may have a minus sign. -/
def attempt? (s : String) : Option UInt32 :=
  match s.toList with
  | '-' :: ds =>
    if !ds.isEmpty && ds.all (· = '0') then some 0 else none
  | _ => (Number.readNat? (Nat.pow 2 32) s).map Nat.toUInt32

/-- The game that arguments choose; a date and a seed exclude each other. -/
def gameChoice? (a : Arguments) : Option GameChoice := do
  let date ← optional? Date.read? (a.value? "date")
  let seed ← optional? seed? (a.value? "seed")
  let occasion ← match date, seed with
    | none, none => some .today
    | some date, none => some (.date date)
    | none, some seed => some (.seed seed)
    | some _, some _ => none
  return {
    occasion := occasion
    dataset := ← optional? path? (a.value? "dataset")
    config := ← optional? path? (a.value? "config") }

/-! ### The commands -/

def gameOptions : List String := ["date", "seed", "dataset", "config"]

def readDaily? (arguments : List String) : Option Command := do
  let a ← Arguments.read? { options := gameOptions, flags := ["reveal", "json"] } arguments
  return .daily (← gameChoice? a) (a.hasFlag "reveal") (a.hasFlag "json")

def readGuess? (arguments : List String) : Option Command := do
  let shape : Shape := {
    options := "attempt" :: gameOptions, flags := ["json"], operands := 1, takesNegatives := true }
  let a ← Arguments.read? shape arguments
  let number ← a.operands.head?.bind Number.read?
  let attempt ← optional? attempt? (a.value? "attempt")
  return .guess number (attempt.getD 1) (← gameChoice? a) (a.hasFlag "json")

def readValidate? (arguments : List String) : Option Command := do
  let a ← Arguments.read? { options := ["dataset", "config"] } arguments
  return .validate (← optional? path? (a.value? "dataset")) (← optional? path? (a.value? "config"))

def readList? (arguments : List String) : Option Command := do
  let a ← Arguments.read? { options := ["dataset", "config", "sort"] } arguments
  return .list (← optional? path? (a.value? "dataset")) (← optional? path? (a.value? "config"))
    ((a.value? "sort").getD "difficulty")

def readImport? (arguments : List String) : Option Command := do
  let a ← Arguments.read? { options := ["values", "config"], operands := 1 } arguments
  let sheet ← a.operands.head?.bind path?
  return .importSheet sheet (← optional? path? (a.value? "values"))
    (← optional? path? (a.value? "config"))

def readGenerate? (arguments : List String) : Option Command := do
  let a ← Arguments.read?
    { options := ["values", "output", "count", "seed", "config"], flags := ["derive"] } arguments
  return .generate (← optional? path? (a.value? "values")) (← optional? path? (a.value? "output"))
    (← optional? count? (a.value? "count")) (← optional? seed? (a.value? "seed"))
    (a.hasFlag "derive") (← optional? path? (a.value? "config"))

def readInit? (arguments : List String) : Option Command := do
  let _ ← Arguments.read? {} arguments
  return .init

def read? : List String → Option Command
  | "daily" :: rest => readDaily? rest
  | "guess" :: rest => readGuess? rest
  | "validate" :: rest => readValidate? rest
  | "list" :: rest => readList? rest
  | "import" :: rest => readImport? rest
  | "generate" :: rest => readGenerate? rest
  | "init" :: rest => readInit? rest
  | _ => none

end Command

end FermiQuiz
