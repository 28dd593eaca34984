import FermiQuiz.Store.FileTree
import FermiQuiz.Store.Host

/-!
# Worlds

A host with no system behind it: files, environment variables and printed text held in memory.
-/

namespace FermiQuiz

/-- Environment variables by name, each kept as the text `name=value`. -/
structure Environment where
  texts : List String

namespace Environment

def ofList (entries : List (String × String)) : Environment :=
  ⟨entries.map fun (name, value) => name ++ "=" ++ value⟩

/-- What follows the name and an equals sign in the first text that starts with them. A name with
an equals sign in it thus finds the rest of a value that starts as it ends. -/
def lookUp (e : Environment) (name : String) : Option String :=
  let start := name ++ "="
  if name = "" || name.toList.contains '\x00' then none
  else (e.texts.find? (·.startsWith start)).map fun text =>
    String.ofList (text.toList.drop start.length)

end Environment

/-- A host in memory: its files, its environment variables, and what was printed so far. -/
structure World where
  tree : FileTree
  environment : Environment
  printed : String := ""

namespace World

def update (w : World) : Except FileError FileTree → Except FileError Unit × World
  | .ok tree => (.ok (), { w with tree := tree })
  | .error e => (.error e, w)

instance : Host (StateM World) where
  isPresent path := fun w => (w.tree.isPresent path, w)
  readText path := fun w => (w.tree.readText path, w)
  writeText path s := fun w => w.update (w.tree.write path (.text s))
  makeDirectory path := fun w => w.update (w.tree.makeDirectory path)
  lookUp name := fun w => (w.environment.lookUp name, w)
  say line := fun w => ((), { w with printed := w.printed ++ line ++ "\n" })

end World

end FermiQuiz
