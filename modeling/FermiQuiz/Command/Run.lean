import FermiQuiz.Command.Basic
import FermiQuiz.Command.Starter
import FermiQuiz.Command.Table
import FermiQuiz.Density
import FermiQuiz.Pick
import FermiQuiz.Settings
import FermiQuiz.Sheet.Import
import FermiQuiz.Text.Quoted

/-!
# Running commands

What each command does on a host: which files it reads and writes, and what it prints.
-/

namespace FermiQuiz

open Number (Elementary naturalText)

/-- What a run depends on besides its host: the day, the time and chance. -/
structure Moment where
  today : UInt64
  stamp : String
  /-- Where chance starts from in a run that is given no seed. -/
  chance : UInt64

def Occasion.seedAt (moment : Moment) : Occasion → UInt64
  | today => moment.today
  | date day => dailySeed day
  | seed s => s

namespace Command

def answerText (x : Float) : Except GameError String := do
  return Number.plainText x ++ " (" ++ (← scientific x 2).text ++ ")"

variable {m : Type → Type} [Monad m] [Host m]

def print (line : String) : Attempt m Unit := ExceptT.lift (Host.say line)

def printJson (v : Json) : Attempt m Unit := print v.prettyText

/-! ### Playing -/

structure Game where
  settings : Settings
  dataset : Dataset
  seed : UInt64
  question : Question

def openGame (moment : Moment) (choice : GameChoice) : Attempt m Game := do
  let settings ← Settings.load choice.config
  let dataset ← loadOrBundled (choice.dataset <|> settings.dataset)
  let seed := choice.occasion.seedAt moment
  let question ← .ofGame (seededQuestion dataset seed)
  return ⟨settings, dataset, seed, question⟩

def figureLine (f : Figure) : String := "  - " ++ f.name ++ ": " ++ f.text

def runDaily (moment : Moment) (choice : GameChoice) (reveal json : Bool) : Attempt m Unit := do
  let game ← openGame moment choice
  let seed := naturalText game.seed.toNat
  if json then
    printJson (.object (field "seed" (Json.ofInt game.seed.toNat) ++
      field "question" game.question.toJson))
  else
    print ("Fermidle #" ++ seed)
    print ""
    print game.question.prompt
    game.question.figures.forM fun f => print (figureLine f)
    if reveal then
      let answer ← .ofGame (answerText game.question.answer)
      print ""
      print ("Answer: " ++ answer)
    else
      print ""
      print ("Guess with: fermidle guess <NUMBER> --seed " ++ seed)

def runGuess [Elementary] (moment : Moment) (guess : Float) (attempt : UInt32)
    (choice : GameChoice) (json : Bool) : Attempt m Unit := do
  if attempt = 0 then throw ⟨[], .message "attempt must be at least 1"⟩
  let game ← openGame moment choice
  let stream := hintStream game.seed attempt
  let hint ← .ofGame (drawHint game.settings.hint game.dataset game.question guess stream).1
  if json then
    printJson (.object (field "seed" (Json.ofInt game.seed.toNat) ++
      field "attempt" (Json.ofInt attempt.toNat) ++ field "guess" (Json.ofFloat guess) ++
      field "hint" hint.toJson))
  else
    print hint.message
    if hint.isCorrect then
      print ("The answer was " ++ (← .ofGame (answerText game.question.answer)) ++ ".")

/-! ### Looking at a dataset -/

/-- A dataset, and a label for where it comes from. -/
def openDataset (dataset config : Option String) : Attempt m (String × Dataset) := do
  let settings ← Settings.load config
  let path := dataset <|> settings.dataset
  return (path.getD "bundled", ← loadOrBundled path)

def warningLine (w : Warning) : String :=
  let place := match w.index with
    | some i => "  [#" ++ naturalText i ++ "]"
    | none => "  "
  place ++ " WARNING: " ++ w.issue.message

def runValidate (dataset config : Option String) : Attempt m Unit := do
  let (source, d) ← openDataset dataset config
  print ("Dataset: " ++ source ++ " (" ++ naturalText d.questions.length ++ " questions)")
  d.warnings.forM fun w => print (warningLine w)
  if d.warnings.isEmpty then print "Dataset valid."
  else print ("\n" ++ naturalText d.warnings.length ++ " warning(s) found.")

def sorted? [Elementary] (order : String) (qs : List Question) : Option (List Question) :=
  if order = "difficulty" then some (qs.mergeSort fun a b => (compareDifficulty a b).isLE)
  else if order = "magnitude" then some (qs.mergeSort fun a b => Number.totalLe a.answer b.answer)
  else if order = "none" then some qs
  else none

def listRow [Elementary] (q : Question) : Except GameError (List String) := do
  return [q.prompt, (← scientific q.answer 2).text,
    String.ofList (Number.integerText (← magnitude q.answer)), Number.fixedText 2 (difficulty q)]

def runList [Elementary] (dataset config : Option String) (order : String) : Attempt m Unit := do
  let (_, d) ← openDataset dataset config
  match sorted? order d.questions with
  | none =>
    throw ⟨[], .message ("unknown sort order: '" ++ order ++
      "' (expected difficulty, magnitude, none)")⟩
  | some qs =>
    let rows ← .ofGame (qs.mapM listRow)
    print (Table.draw ["Question", "Answer", "Magnitude", "Difficulty"] rows)
    print (naturalText d.questions.length ++ " questions")

/-! ### Making questions -/

def brokenLine (p : Sheet.Piece) : String :=
  "  WARNING: unreadable " ++ p.measurement ++ " of " ++ p.thing ++ ": " ++ Text.quoted p.text

def runImport (moment : Moment) (sheet : String) (facts config : Option String) :
    Attempt m Unit := do
  let settings ← Settings.load config
  let path := facts.getD settings.facts
  let text ← readFile "values sheet" sheet
  let imported ← Attempt.within ("in " ++ sheet) (ExceptT.mk (pure (importFacts moment.stamp text)))
  if imported.facts.isEmpty then throw ⟨[], .message ("no readable values in " ++ sheet)⟩
  let existing ← loadFacts path
  imported.broken.forM fun p => print (brokenLine p)
  saveFacts path (carryOver existing imported.facts)
  print ("Imported " ++ naturalText imported.facts.length ++ " value(s) (" ++
    naturalText (carriedCount existing imported.facts) ++ " kept from existing, " ++
    naturalText imported.broken.length ++ " unreadable)")
  print ("Saved to: " ++ path)

def runGenerate (moment : Moment) (facts questions : Option String) (count : Option Nat)
    (seed : Option UInt64) (derive : Bool) (config : Option String) : Attempt m Unit := do
  let settings ← Settings.load config
  let factsPath := facts.getD settings.facts
  let path := questions.getD settings.questions
  let generation : GenerationSettings :=
    { settings.generation with count := count.getD settings.generation.count }
  let given ← loadFacts factsPath
  if given.isEmpty then throw ⟨[], .message ("no values found in " ++ factsPath)⟩
  let used := if derive then deriveFacts given else given
  let existing ← loadQuestions path
  let stream := Chance.Stream.ofSeed (seed.getD moment.chance)
  let made ← Attempt.within ("cannot generate questions from " ++ factsPath)
    (.ofGame (FermiQuiz.generate used existing generation moment.stamp stream).1)
  saveQuestions path made.questions
  print ("Generated " ++ naturalText made.added.length ++ " new question(s) (" ++
    naturalText existing.length ++ " existing, " ++ naturalText made.questions.length ++ " total)")
  print ("Saved to: " ++ path)

/-! ### Starting -/

/-- Writes a starter file, unless there is one at its place. -/
def writeStarter (path text : String) : Attempt m Unit := do
  if ← (Host.isPresent path : m Bool) then print (path ++ " already exists, skipping.")
  else
    .ofFile [] (Host.writeText path text)
    print ("Created " ++ path)

def runInit : Attempt m Unit := do
  writeStarter Settings.localFile Starter.configuration
  .ofFile [] (makeDirectories "data")
  writeStarter "data/values.json" Starter.facts
  print "\nNext steps:"
  print "  1. Add your own measurements to data/values.json"
  print "  2. Run: fermidle generate --count 5 --derive"
  print "  3. Run: fermidle validate --dataset questions.json"
  print "  4. Set `dataset = \"questions.json\"` in fermidle.toml and play: fermidle daily"

/-! ### Any command -/

def run [Elementary] (moment : Moment) : Command → Attempt m Unit
  | daily choice reveal json => runDaily moment choice reveal json
  | guess number attempt choice json => runGuess moment number attempt choice json
  | validate dataset config => runValidate dataset config
  | list dataset config order => runList dataset config order
  | importSheet sheet facts config => runImport moment sheet facts config
  | generate facts questions count seed derive config =>
    runGenerate moment facts questions count seed derive config
  | init => runInit

inductive Outcome where
  | done
  | failed (failure : Failure)
  | misused

namespace Outcome

def exitCode : Outcome → Nat
  | done => 0
  | failed _ => 1
  | misused => 2

end Outcome

def runArguments [Elementary] (moment : Moment) (arguments : List String) : m Outcome := do
  match read? arguments with
  | none => return .misused
  | some command =>
    match ← (run moment command : Attempt m Unit).run with
    | .ok _ => return .done
    | .error failure => return .failed failure

end Command

end FermiQuiz
