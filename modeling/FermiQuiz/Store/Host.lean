import FermiQuiz.Store.Failure

/-!
# The host

What a program asks of the system it runs on: text files by path, environment variables, and a
place to print.
-/

namespace FermiQuiz

/-- A monad with files, environment variables and printed text. -/
class Host (m : Type → Type) where
  /-- Whether there is a file or a directory at a path. -/
  isPresent : String → m Bool
  readText : String → m (Except FileError String)
  /-- Writes a file, in place of one that may be there. -/
  writeText : String → String → m (Except FileError Unit)
  /-- Makes a directory where nothing is, in a directory that is there. -/
  makeDirectory : String → m (Except FileError Unit)
  lookUp : String → m (Option String)
  say : String → m Unit

abbrev Attempt (m : Type → Type) (α : Type) := ExceptT Failure m α

namespace Attempt

variable {m : Type → Type} [Monad m] {α : Type}

/-- A file operation as a step, done as part of what `context` says. -/
def ofFile (contexts : List String) (x : m (Except FileError α)) : Attempt m α :=
  ExceptT.mk do
    match ← x with
    | .ok a => return .ok a
    | .error e => return .error ⟨contexts, .file e⟩

def ofGame (x : Except GameError α) : Attempt m α :=
  ExceptT.mk (pure (match x with
    | .ok a => .ok a
    | .error e => .error (.ofGame e)))

def within (context : String) (x : Attempt m α) : Attempt m α :=
  ExceptT.mk do
    match ← x.run with
    | .ok a => return .ok a
    | .error f => return .error (f.within context)

end Attempt

end FermiQuiz
