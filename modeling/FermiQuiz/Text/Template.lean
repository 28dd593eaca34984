/-!
# Templates

A text in which `$` and a name in braces stand for the value of a variable. `parts` takes a
template apart in one pass from left to right; a value that is put in is not looked at again.
-/

namespace FermiQuiz.Text

inductive Part where
  | char (c : Char)
  | reference (name : List Char)
  deriving DecidableEq, Repr

/-- The parts of a text that follows an opened reference, or follows no open reference. A
reference that is never closed is plain text. -/
def partsFrom : Option (List Char) → List Char → List Part
  | none, [] => []
  | none, '$' :: '{' :: rest => partsFrom (some []) rest
  | none, c :: rest => .char c :: partsFrom none rest
  | some seen, [] => ('$' :: '{' :: seen.reverse).map .char
  | some seen, c :: rest =>
    if c = '}' then .reference seen.reverse :: partsFrom none rest
    else partsFrom (some (c :: seen)) rest

def parts (s : String) : List Part := partsFrom none s.toList

/-- The text of a part, with the values that `value` gives. A variable without a value stands
for nothing. -/
def Part.fill (value : String → Option String) : Part → List Char
  | char c => [c]
  | reference name => ((value (String.ofList name)).getD "").toList

def expand (value : String → Option String) (s : String) : String :=
  String.ofList ((parts s).flatMap (Part.fill value))

def expandM {m : Type → Type} [Monad m] (value : String → m (Option String)) (s : String) :
    m String := do
  let filled ← (parts s).mapM fun part =>
    match part with
    | .char c => pure [c]
    | .reference name => do
      let found ← value (String.ofList name)
      pure (Part.fill (fun _ => found) (.reference name))
  return String.ofList filled.flatten

end FermiQuiz.Text
