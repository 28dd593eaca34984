import FermiQuiz.Toml.Scalar
import FermiQuiz.Toml.Table
import FermiQuiz.Toml.Text

/-!
# Reading TOML

A document is a list of statements, one a line: headers of tables, and keys with values. The
statements are read first, then put together to one table.
-/

namespace FermiQuiz.Toml

def dropBlanks (cs : List Char) : List Char := cs.dropWhile isBlank

def isCommentChar (c : Char) : Bool := isTextChar c

/-- A text without the line end that it begins with; the end of the document ends a line too. -/
def lineEnd? : List Char → Option (List Char)
  | [] => some []
  | '\n' :: cs => some cs
  | '\r' :: '\n' :: cs => some cs
  | _ => none

/-- The text after a line of which only blanks and a comment are left. -/
def endLine? (cs : List Char) : Option (List Char) :=
  match dropBlanks cs with
  | '#' :: cs => lineEnd? (cs.dropWhile isCommentChar)
  | cs => lineEnd? cs

/-- A text without the blanks, line ends and comments that it begins with. -/
def dropLayout (inComment : Bool) : List Char → List Char
  | [] => []
  | '\n' :: cs => dropLayout false cs
  | '\r' :: '\n' :: cs => dropLayout false cs
  | c :: cs =>
    if inComment then if isCommentChar c then dropLayout true cs else c :: cs
    else if isBlank c then dropLayout false cs
    else if c = '#' then dropLayout true cs
    else c :: cs

/-! ### Keys -/

def isBareChar (c : Char) : Bool := c.isAlphanum || c = '_' || c = '-'

def takeKeyPart? : List Char → Option (String × List Char)
  | '"' :: cs => (lineText? '"' cs).map fun (part, rest) => (String.ofList part, rest)
  | '\'' :: cs => (lineText? '\'' cs).map fun (part, rest) => (String.ofList part, rest)
  | cs =>
    let part := cs.takeWhile isBareChar
    if part.isEmpty then none else some (String.ofList part, cs.dropWhile isBareChar)

/-- A key of at most so many parts, with blanks around them. -/
def takeParts? : Nat → List Char → Option (Key × List Char)
  | 0, _ => none
  | limit + 1, cs => do
    let (part, rest) ← takeKeyPart? (dropBlanks cs)
    match dropBlanks rest with
    | '.' :: rest =>
      let (key, rest) ← takeParts? limit rest
      return (⟨part :: key.path, key.name⟩, rest)
    | rest => return (⟨[], part⟩, rest)

/-- The greatest number of parts in a key, and of lists and tables around a value. -/
def depthLimit : Nat := 79

def takeKey? (cs : List Char) : Option (Key × List Char) := takeParts? depthLimit cs

/-! ### Values -/

def takeScalar? : List Char → Option (Toml × List Char)
  | '"' :: cs => (text? '"' cs).map fun (s, rest) => (.text (String.ofList s), rest)
  | '\'' :: cs => (text? '\'' cs).map fun (s, rest) => (.text (String.ofList s), rest)
  | cs => takeWord? cs

/-- The items of a list from the next one on, up to the closing bracket. `item` reads an item, and
there are fewer than `fuel`. -/
def takeItems? (item : List Char → Option (Toml × List Char)) :
    Nat → List Char → Option (List Toml × List Char)
  | 0, _ => none
  | fuel + 1, cs =>
    match dropLayout false cs with
    | ']' :: rest => some ([], rest)
    | cs => do
      let (v, rest) ← item cs
      match dropLayout false rest with
      | ',' :: rest =>
        let (vs, rest) ← takeItems? item fuel rest
        return (v :: vs, rest)
      | ']' :: rest => return ([v], rest)
      | _ => none

def takeAssigned? (item : List Char → Option (Toml × List Char)) :
    List Char → Option (Toml × List Char)
  | '=' :: cs => item (dropBlanks cs)
  | _ => none

/-- The entries of a table on one line, with the fields from the next one on, up to the closing
brace. `item` reads a value, and there are fewer than `fuel` fields. -/
def takeFields? (item : List Char → Option (Toml × List Char)) :
    Nat → Entries → List Char → Option (Entries × List Char)
  | 0, _, _ => none
  | fuel + 1, entries, cs => do
    let (key, rest) ← takeKey? cs
    let (v, rest) ← takeAssigned? item rest
    let entries ← assign key v entries
    match dropBlanks rest with
    | ',' :: rest => takeFields? item fuel entries rest
    | '}' :: rest => return (entries, rest)
    | _ => none

/-- A value with at most so many lists and tables around any of its parts. -/
def takeValue? : Nat → List Char → Option (Toml × List Char)
  | depth + 1, '[' :: cs => do
    let (vs, rest) ← takeItems? (takeValue? depth) (cs.length + 1) cs
    return (.array vs, rest)
  | depth + 1, '{' :: cs =>
    match dropBlanks cs with
    | '}' :: rest => some (.table [], rest)
    | cs => do
      let (entries, rest) ← takeFields? (takeValue? depth) (cs.length + 1) [] cs
      return (.table (fieldsOf entries), rest)
  | _, cs => takeScalar? cs

/-! ### Statements -/

inductive Statement where
  | assign (key : Key) (v : Toml)
  | header (key : Key)
  | element (key : Key)

def takeStatement? : List Char → Option (Statement × List Char)
  | '[' :: '[' :: cs => do
    let (key, rest) ← takeKey? cs
    match rest with
    | ']' :: ']' :: rest => return (.element key, rest)
    | _ => none
  | '[' :: cs => do
    let (key, rest) ← takeKey? cs
    match rest with
    | ']' :: rest => return (.header key, rest)
    | _ => none
  | cs => do
    let (key, rest) ← takeKey? cs
    let (v, rest) ← takeAssigned? (takeValue? depthLimit) rest
    return (.assign key v, rest)

/-- The statements of a document of fewer than `fuel` lines. -/
def statementsWithin? : Nat → List Char → Option (List Statement)
  | 0, _ => none
  | fuel + 1, cs =>
    let cs := dropBlanks cs
    if cs.isEmpty then some []
    else
      match endLine? cs with
      | some rest => statementsWithin? fuel rest
      | none => do
        let (statement, rest) ← takeStatement? cs
        return statement :: (← statementsWithin? fuel (← endLine? rest))

def statements? (cs : List Char) : Option (List Statement) :=
  statementsWithin? (cs.length + 1) cs

/-! ### Documents -/

/-- A document as far as it was read: the table that the last header opened, and all entries. -/
structure Draft where
  table : List String
  entries : Entries

def Draft.add? (d : Draft) : Statement → Option Draft
  | .assign key v => (assignIn d.table key v d.entries).map (⟨d.table, ·⟩)
  | .header key => (declare key d.entries).map (⟨key.path ++ [key.name], ·⟩)
  | .element key => (declareElement key d.entries).map (⟨key.path ++ [key.name], ·⟩)

def dropByteOrderMark : List Char → List Char
  | '\uFEFF' :: cs => cs
  | cs => cs

def read? (s : String) : Option (List (String × Toml)) := do
  let statements ← statements? (dropByteOrderMark s.toList)
  let draft ← statements.foldlM Draft.add? ⟨[], []⟩
  return fieldsOf draft.entries

end FermiQuiz.Toml
