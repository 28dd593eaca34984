import FermiQuiz.Text.Blank

/-!
# Paths

A path is a list of names with slashes between them. A path that starts with a slash leads from
the root, any other from the working directory. `directoriesAbove` lists the directories that a
path goes through to the file it names.
-/

namespace FermiQuiz

namespace Path

def longest : Nat := 4095

def longestName : Nat := 255

def isAbsolute (path : String) : Bool := path.startsWith "/"

def names (path : String) : List String := (Text.splitAt '/' path.toList).map String.ofList

/-- The names in a path without the empty ones that slashes at its end make. -/
def bareNames (path : String) : List String :=
  ((names path).reverse.dropWhile (· = "")).reverse

def within (directory file : String) : String :=
  if directory.isEmpty || directory.endsWith "/" then directory ++ file
  else directory ++ "/" ++ file

def isIdleName (name : String) : Bool := name = "" || name = "."

/-- The directories that names read backwards lead to and through, the nearest first. -/
def directoriesTo (absolute : Bool) : List String → List String
  | [] => if absolute then ["/"] else []
  | name :: before =>
    if isIdleName name then directoriesTo absolute before
    else String.intercalate "/" (name :: before).reverse :: directoriesTo absolute before

/-- The directories that a path goes through, the nearest first. A path that names nothing goes
through none. -/
def directoriesAbove (path : String) : List String :=
  match (names path).reverse.dropWhile isIdleName with
  | [] => []
  | _ :: before => directoriesTo (isAbsolute path) before

end Path

end FermiQuiz
