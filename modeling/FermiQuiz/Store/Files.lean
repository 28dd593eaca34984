import FermiQuiz.Bundled
import FermiQuiz.Store.Records
import FermiQuiz.Store.Host
import FermiQuiz.Store.Path

/-!
# Question and fact files

Loading and saving of questions and facts. A dataset has to exist and to be fit to be played;
a missing file of facts or of generated questions holds none, and such questions may be unfit.
-/

namespace FermiQuiz

variable {m : Type → Type} [Monad m] [Host m]

/-- The text of a file; `purpose` says what is read in case it cannot be. -/
def readFile (purpose path : String) : Attempt m String :=
  .ofFile ["failed to read " ++ purpose ++ ": " ++ path] (Host.readText path)

/-- Whether there is a directory at a path: then there is a way through it back to itself. -/
def isDirectory (path : String) : m Bool := Host.isPresent (path ++ "/.")

/-- The outcome of making a directory that may have been there before. -/
def unlessDirectory (path : String) : Except FileError Unit → m (Except FileError Unit)
  | .ok _ => return .ok ()
  | .error e => do if ← isDirectory path then return .ok () else return .error e

/-- Makes the first of some directories, each of which lies in the next. A directory that is
missing on the way to it is made first, and stays also when the rest fails. -/
def makeNested : List String → m (Except FileError Unit)
  | [] => return .ok ()
  | path :: above => do
    match ← Host.makeDirectory path with
    | .error .notFound =>
      match ← makeNested above with
      | .error e => return .error e
      | .ok _ => unlessDirectory path (← Host.makeDirectory path)
    | outcome => unlessDirectory path outcome

/-- Makes a directory with those above it; the empty path is the working directory. -/
def makeDirectories (path : String) : m (Except FileError Unit) :=
  if path = "" then return .ok () else makeNested (path :: Path.directoriesAbove path)

/-- Writes a file, in a directory that is made if need be. -/
def saveFile (purpose path text : String) : Attempt m Unit := do
  .ofFile [] (makeNested (Path.directoriesAbove path))
  .ofFile ["failed to write " ++ purpose ++ " to " ++ path] (Host.writeText path text)

/-! ### Datasets -/

def loadDataset (path : String) : Attempt m Dataset := do
  let text ← readFile "dataset" path
  Attempt.within ("invalid dataset: " ++ path) (ExceptT.mk (pure (Dataset.ofText text)))

def loadOrBundled : Option String → Attempt m Dataset
  | some path => loadDataset path
  | none => Attempt.within "bundled dataset is invalid" (.ofGame Dataset.bundled)

/-! ### Facts and generated questions -/

/-- What a file holds, and nothing if there is no such file. -/
def loadList {α : Type} (purpose : String) (read : String → Option (List α)) (path : String) :
    Attempt m (List α) := do
  if ← (Host.isPresent path : m Bool) then
    let text ← readFile purpose path
    match read text with
    | some xs => return xs
    | none => throw ⟨["failed to parse " ++ purpose ++ ": " ++ path], .json⟩
  else return []

def loadFacts (path : String) : Attempt m (List Fact) := loadList "values" readFacts? path

def saveFacts (path : String) (facts : List Fact) : Attempt m Unit :=
  saveFile "values" path (writeFacts facts)

/-- The questions of a file, with clean prompts. -/
def loadQuestions (path : String) : Attempt m (List Question) := do
  return (← loadList "questions" readQuestions? path).map Question.normalize

def saveQuestions (path : String) (qs : List Question) : Attempt m Unit :=
  saveFile "questions" path (writeQuestions qs)

end FermiQuiz
