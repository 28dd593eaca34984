import FermiQuiz.Command.Run
import Std.Time.DateTime.Timestamp

/-!
# The program

The command line on a real system.
-/

namespace FermiQuiz

def FileError.ofSystem : IO.Error → FileError
  | .noFileOrDirectory _ _ _ => .notFound
  | .alreadyExists _ _ _ => .alreadyExists
  | .inappropriateType _ code _ =>
    if code = 20 || -code = 20 then .notDirectory else .isDirectory
  | .invalidArgument (some _) 36 _ => .nameTooLong
  | e => .other (toString e)

def attemptFile {α : Type} (x : IO α) : IO (Except FileError α) := do
  match ← x.toBaseIO with
  | .ok a => return .ok a
  | .error e => return .error (FileError.ofSystem e)

/-- Whether a path leads somewhere, even where it may not be read. -/
def isPresentPath (path : String) : IO Bool := do
  match ← attemptFile (IO.FS.Handle.mk path .read) with
  | .ok _ => return true
  | .error e => return e != .notFound && e != .notDirectory && e != .nameTooLong

def readSystemFile (path : String) : IO (Except FileError String) := do
  match ← attemptFile (IO.FS.readBinFile path) with
  | .error e => return .error e
  | .ok bytes =>
    match String.fromUTF8? bytes with
    | some s => return .ok s
    | none => return .error .notText

instance : Host IO where
  isPresent := isPresentPath
  readText := readSystemFile
  writeText path s := attemptFile (IO.FS.writeFile path s)
  makeDirectory path := attemptFile (IO.FS.createDir path)
  lookUp := fun name => IO.getEnv name
  say := fun line => IO.println line

def currentMoment : IO Moment := do
  let now ← Std.Time.Timestamp.now
  let nanoseconds := now.toNanosecondsSinceUnixEpoch.val
  let (year, month, day) := Date.ofEpochDay (Int.fdiv nanoseconds 86400000000000)
  let bytes ← IO.getRandomBytes 8
  return {
    today := ((Date.of? year month day).map dailySeed).getD 0
    stamp := momentText nanoseconds
    chance := bytes.data.foldl (fun n b => n * 256 + b.toUInt64) 0 }

def runProgram (arguments : List String) : IO UInt32 := do
  let outcome ← Command.runArguments (← currentMoment) arguments
  match outcome with
  | .done => pure ()
  | .failed failure => IO.eprintln ("Error: " ++ failure.message)
  | .misused =>
    IO.eprintln "Usage: fermidle <daily|guess|validate|list|import|generate|init> [options]"
  return outcome.exitCode.toUInt32

end FermiQuiz

def main (arguments : List String) : IO UInt32 := FermiQuiz.runProgram arguments
