import FermiQuiz.Store.Failure
import FermiQuiz.Store.Path

/-!
# File trees

Files and directories held in memory. A path is walked one name at a time; every name but the
last has to be a directory.
-/

namespace FermiQuiz

inductive Content where
  | text (s : String)
  /-- Bytes that are no UTF-8 text. -/
  | binary (bytes : List UInt8)
  deriving DecidableEq

def Content.ofBytes (bytes : ByteArray) : Content :=
  match String.fromUTF8? bytes with
  | some s => .text s
  | none => .binary bytes.data.toList

inductive Node where
  | directory
  | file (content : Content)
  deriving DecidableEq

/-- What there is below the root, by the names that lead to it, and the working directory. -/
structure FileTree where
  entries : List (List String × Node)
  /-- The place where paths start that do not start at the root. -/
  base : List String

namespace FileTree

/-- A tree without files, in which only the working directory and those above it are there. -/
def bare (base : List String) : FileTree where
  entries := (List.range base.length).map fun n => (base.take (n + 1), .directory)
  base := base

/-- What there is at a place; the root is always a directory. -/
def node? (tree : FileTree) (place : List String) : Option Node :=
  if place.isEmpty then some .directory else tree.entries.lookup place

def put (tree : FileTree) (place : List String) (node : Node) : FileTree :=
  { tree with entries := (place, node) :: tree.entries.filter (·.1 != place) }

/-! ### Finding -/

/-- The place that names lead to from another place, which they may leave for its parent. There
need be nothing at that place, but in a directory it has to be. -/
def walk (tree : FileTree) (place : List String) : List String → Except FileError (List String)
  | [] => .ok place
  | name :: rest =>
    match tree.node? place with
    | none => .error .notFound
    | some (.file _) => .error .notDirectory
    | some .directory =>
      if Path.isIdleName name then tree.walk place rest
      else if name = ".." then tree.walk place.dropLast rest
      else if Path.longestName < name.utf8ByteSize then .error .nameTooLong
      else tree.walk (place ++ [name]) rest

/-- The place that names in a path lead to. A path may be no path at all. -/
def findNames (tree : FileTree) (path : String) (names : List String) :
    Except FileError (List String) :=
  if path.toList.contains '\x00' then .error .zeroInName
  else if path = "" then .error .notFound
  else if Path.longest < path.utf8ByteSize then .error .nameTooLong
  else tree.walk (if Path.isAbsolute path then [] else tree.base) names

def find (tree : FileTree) (path : String) : Except FileError (List String) :=
  tree.findNames path (Path.names path)

def isPresent (tree : FileTree) (path : String) : Bool :=
  match tree.find path with
  | .ok place => (tree.node? place).isSome
  | .error _ => false

/-! ### Reading and writing -/

def readText (tree : FileTree) (path : String) : Except FileError String := do
  match tree.node? (← tree.find path) with
  | none => .error .notFound
  | some .directory => .error .isDirectory
  | some (.file (.binary _)) => .error .notText
  | some (.file (.text s)) => .ok s

/-- The tree with a file at a path. A path that ends in a slash is one of a directory, whatever is
there; only what it lies in is looked at. -/
def write (tree : FileTree) (path : String) (content : Content) : Except FileError FileTree := do
  if path.endsWith "/" then
    let _ ← tree.findNames path ((Path.bareNames path).dropLast ++ ["."])
    .error .isDirectory
  else
    let place ← tree.find path
    if tree.node? place = some .directory then .error .isDirectory
    else .ok (tree.put place (.file content))

/-- The tree with a directory at a path where nothing was. -/
def makeDirectory (tree : FileTree) (path : String) : Except FileError FileTree := do
  let place ← tree.findNames path (Path.bareNames path)
  if (tree.node? place).isSome then .error .alreadyExists
  else .ok (tree.put place .directory)

def relativePath? (tree : FileTree) (place : List String) : Option String :=
  if tree.base.isPrefixOf place then some (String.intercalate "/" (place.drop tree.base.length))
  else none

/-- The files below the working directory that `old` does not have in the same form, with their
paths. -/
def changes (old new : FileTree) : List (String × Content) :=
  new.entries.filterMap fun (place, node) =>
    match node with
    | .directory => none
    | .file content =>
      if old.node? place = some (.file content) then none
      else (new.relativePath? place).map fun path => (path, content)

end FileTree

end FermiQuiz
