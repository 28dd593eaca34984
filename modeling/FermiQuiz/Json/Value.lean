/-!
# JSON values

A JSON document as a tree whose numbers and strings keep their spelling: a number is its literal,
a string the text between its quotes. `compact` writes a value on one line, `pretty` over several
lines with two spaces for each level.
-/

namespace FermiQuiz

/-- A JSON value with literals as they are spelled. -/
inductive Json where
  | null
  | bool (value : Bool)
  | number (literal : List Char)
  /-- The text between the quotes, escapes included. -/
  | string (body : List Char)
  | array (items : List Json)
  | object (fields : List (List Char × Json))

namespace Json

def quote (body : List Char) : List Char := '"' :: body ++ ['"']

/-! ### One line -/

mutual

/-- The value on one line, without blanks. -/
def compact : Json → List Char
  | null => ['n', 'u', 'l', 'l']
  | bool true => ['t', 'r', 'u', 'e']
  | bool false => ['f', 'a', 'l', 's', 'e']
  | number literal => literal
  | string body => quote body
  | array items => '[' :: compactItems items ++ [']']
  | object fields => '{' :: compactFields fields ++ ['}']

def compactItems : List Json → List Char
  | [] => []
  | [v] => v.compact
  | v :: vs => v.compact ++ ',' :: compactItems vs

def compactFields : List (List Char × Json) → List Char
  | [] => []
  | [(key, v)] => quote key ++ ':' :: v.compact
  | (key, v) :: rest => quote key ++ ':' :: v.compact ++ ',' :: compactFields rest

end

/-! ### Several lines -/

def lineBreak (level : Nat) : List Char := '\n' :: List.replicate (2 * level) ' '

mutual

/-- The value over several lines, within a line at the given level. An empty list or object stays
on its line. -/
def pretty (level : Nat) : Json → List Char
  | null => ['n', 'u', 'l', 'l']
  | bool true => ['t', 'r', 'u', 'e']
  | bool false => ['f', 'a', 'l', 's', 'e']
  | number literal => literal
  | string body => quote body
  | array [] => ['[', ']']
  | array (v :: vs) => '[' :: prettyItems (level + 1) (v :: vs) ++ lineBreak level ++ [']']
  | object [] => ['{', '}']
  | object (f :: fs) => '{' :: prettyFields (level + 1) (f :: fs) ++ lineBreak level ++ ['}']

def prettyItems (level : Nat) : List Json → List Char
  | [] => []
  | [v] => lineBreak level ++ v.pretty level
  | v :: vs => lineBreak level ++ v.pretty level ++ ',' :: prettyItems level vs

def prettyFields (level : Nat) : List (List Char × Json) → List Char
  | [] => []
  | [(key, v)] => lineBreak level ++ quote key ++ ':' :: ' ' :: v.pretty level
  | (key, v) :: rest =>
    lineBreak level ++ quote key ++ ':' :: ' ' :: v.pretty level ++ ',' :: prettyFields level rest

end

def compactText (v : Json) : String := String.ofList v.compact

def prettyText (v : Json) : String := String.ofList (v.pretty 0)

end Json

end FermiQuiz
