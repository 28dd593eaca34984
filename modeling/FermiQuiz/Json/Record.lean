import FermiQuiz.Json.Reader

/-!
# Records in JSON

A record is written as an object with its fields by name, or as a list of its fields in order.
Unknown fields are passed over; a known field may occur once.
-/

namespace FermiQuiz.Json

/-- The values of a record's fields, in the order of `names`; what is left out has none. -/
def record? (names : List String) : Json → Option (List (Option Json))
  | .array items =>
    if items.length ≤ names.length then
      some (items.map some ++ List.replicate (names.length - items.length) none)
    else none
  | .object fields => do
    let keyed ← fields.mapM fun (key, v) => (unescape? key).map fun cs => (String.ofList cs, v)
    names.mapM fun name =>
      match keyed.filter (·.1 == name) with
      | [] => some none
      | [(_, v)] => some (some v)
      | _ => none
  | _ => none

def required? {α : Type} (read : Json → Option α) (field : Option Json) : Option α :=
  field.bind read

/-- A field that stands for `standard` when it is left out. -/
def optional? {α : Type} (standard : α) (read : Json → Option α) : Option Json → Option α
  | none => some standard
  | some v => read v

def list? {α : Type} (read : Json → Option α) : Json → Option (List α)
  | .array items => items.mapM read
  | _ => none

def maybeText? : Json → Option (Option String)
  | .null => some none
  | v => (text? v).map some

/-- A field of a record that is left out when the text is empty. -/
def textUnlessEmpty (name : String) (s : String) : List (List Char × Json) :=
  if s = "" then [] else [(name.toList, ofText s)]

end FermiQuiz.Json
