import FermiQuiz.Generation
import FermiQuiz.Hint
import FermiQuiz.Store.Files
import FermiQuiz.Text.Template
import FermiQuiz.Toml.Reader

/-!
# Settings

Where the files of a game lie, and how hints and questions are made. Settings are read from a
configuration in TOML; what it leaves out keeps its standard value. Paths may refer to environment
variables.
-/

namespace FermiQuiz

structure Settings where
  /-- The dataset to play; without one, the bundled questions are played. -/
  dataset : Option String := none
  facts : String := "data/values.json"
  questions : String := "questions.json"
  hint : HintSettings := {}
  generation : GenerationSettings := {}

/-! ### Reading a configuration -/

namespace Toml

def string? : Toml → Option String
  | .text s => some s
  | _ => none

/-- A number; an integer goes to the nearest double. -/
def number? : Toml → Option Float
  | .float x => some x
  | .integer n =>
    let size := Number.nearestDecimal n.natAbs 0
    some (if n < 0 then -size else size)
  | _ => none

def count? : Toml → Option Nat
  | .integer n => if 0 ≤ n then some n.toNat else none
  | _ => none

/-- The values of a record's fields, in the order of `names`: a table gives them by name, a list
in order. Further ones are passed over. A date counts as a table with none of the names. -/
def record? (names : List String) : Toml → Option (List (Option Toml))
  | .table fields => some (names.map fun name => fields.lookup name)
  | .array items => some (names.mapIdx fun i _ => items[i]?)
  | .dateTime => some (names.map fun _ => none)
  | _ => none

/-- A field that stands for `standard` when it is left out. -/
def fieldOr {α : Type} (standard : α) (read : Toml → Option α) : Option Toml → Option α
  | none => some standard
  | some v => read v

end Toml

open Toml (record? fieldOr)

def HintSettings.ofToml? (v : Toml) : Option HintSettings := do
  let standard : HintSettings := {}
  match ← record?
    ["closer_probability", "base_tolerance", "tolerance_scale", "max_tolerance", "pool_size"] v with
  | [closer, base, scale, greatest, pool] =>
    return {
      closerProbability := ← fieldOr standard.closerProbability Toml.number? closer
      baseTolerance := ← fieldOr standard.baseTolerance Toml.number? base
      toleranceScale := ← fieldOr standard.toleranceScale Toml.number? scale
      maxTolerance := ← fieldOr standard.maxTolerance Toml.number? greatest
      poolSize := ← fieldOr standard.poolSize Toml.count? pool }
  | _ => none

def GenerationSettings.ofToml? (v : Toml) : Option GenerationSettings := do
  let standard : GenerationSettings := {}
  match ← record? ["count", "max_tries"] v with
  | [count, maxTries] =>
    return {
      count := ← fieldOr standard.count Toml.count? count
      maxTries := ← fieldOr standard.maxTries Toml.count? maxTries }
  | _ => none

namespace Settings

def ofFields? (fields : List (String × Toml)) : Option Settings := do
  let standard : Settings := {}
  let names := ["dataset", "values", "questions_output", "hint", "generator"]
  match ← record? names (.table fields) with
  | [dataset, facts, questions, hint, generation] =>
    return {
      dataset := ← fieldOr standard.dataset (fun v => v.string?.map some) dataset
      facts := ← fieldOr standard.facts Toml.string? facts
      questions := ← fieldOr standard.questions Toml.string? questions
      hint := ← fieldOr standard.hint HintSettings.ofToml? hint
      generation := ← fieldOr standard.generation GenerationSettings.ofToml? generation }
  | _ => none

def read? (s : String) : Option Settings := (Toml.read? s).bind ofFields?

/-! ### Finding the configuration -/

def localFile : String := "fermidle.toml"

def homeFile : String := ".config/fermidle/config.toml"

/-- The variable that names the dataset in place of the configuration. -/
def datasetVariable : String := "FERMIDLE_DATASET"

variable {m : Type → Type} [Monad m] [Host m]

/-- The configuration to use: the one asked for, which has to exist, or else the local one or the
player's own, if there is one. -/
def findFile : Option String → Attempt m (Option String)
  | some path => do
    if ← (Host.isPresent path : m Bool) then return some path
    else throw ⟨[], .message ("config file not found: " ++ path)⟩
  | none => do
    if ← (Host.isPresent localFile : m Bool) then return some localFile
    match ← (Host.lookUp "HOME" : m (Option String)) with
    | none => return none
    | some home =>
      let path := Path.within home homeFile
      if ← (Host.isPresent path : m Bool) then return some path else return none

def loadFile (path : String) : Attempt m Settings := do
  let text ← readFile "config" path
  match read? text with
  | some settings => return settings
  | none => throw ⟨["failed to parse config: " ++ path], .toml⟩

def expand (s : Settings) : Attempt m Settings := do
  let fill (path : String) : Attempt m String :=
    Text.expandM (fun name => (Host.lookUp name : m (Option String))) path
  return { s with
    dataset := ← s.dataset.mapM fill
    facts := ← fill s.facts
    questions := ← fill s.questions }

def load (path : Option String) : Attempt m Settings := do
  let settings ← match ← findFile path with
    | some path => loadFile path
    | none => pure {}
  let override ← (Host.lookUp datasetVariable : m (Option String))
  let dataset := match override with
    | some path => if path.isEmpty then settings.dataset else some path
    | none => settings.dataset
  expand { settings with dataset := dataset }

end Settings

end FermiQuiz
