import FermiQuiz.Error

/-!
# Failures

Why an operation on files or documents fails: a cause, and what was being done, from the outside
in.
-/

namespace FermiQuiz

inductive FileError where
  | notFound
  | alreadyExists
  | notDirectory
  | isDirectory
  | nameTooLong
  /-- A path has the character of code zero in it. -/
  | zeroInName
  | notText
  | other (text : String)
  deriving DecidableEq, Repr

def FileError.message : FileError → String
  | notFound => "No such file or directory (os error 2)"
  | alreadyExists => "File exists (os error 17)"
  | notDirectory => "Not a directory (os error 20)"
  | isDirectory => "Is a directory (os error 21)"
  | nameTooLong => "File name too long (os error 36)"
  | zeroInName => "file name contained an unexpected NUL byte"
  | notText => "stream did not contain valid UTF-8"
  | other text => text

inductive Cause where
  | game (error : GameError)
  | file (error : FileError)
  | json
  | toml
  | message (text : String)

/-- The wording of a cause. How a document is malformed is not told. -/
def Cause.text? : Cause → Option String
  | game error => some error.message
  | file error => some error.message
  | json => none
  | toml => none
  | message text => some text

/-- A cause, and what was being done, outermost first. -/
structure Failure where
  contexts : List String
  cause : Cause

namespace Failure

def ofGame (error : GameError) : Failure := ⟨[], .game error⟩

def within (context : String) (f : Failure) : Failure :=
  { f with contexts := context :: f.contexts }

def message (f : Failure) : String :=
  String.intercalate ": " (f.contexts ++ f.cause.text?.toList)

end Failure

end FermiQuiz
