import FermiQuiz.Toml.Value

/-!
# Tables in the making

A document names a table in pieces: by headers, and by keys with dots in them. What may still be
added to a table depends on how it came to be.
-/

namespace FermiQuiz.Toml

inductive Origin where
  /-- Part of the path in a header. -/
  | implied
  /-- The table of a header. -/
  | declared
  /-- Part of a key with dots. -/
  | dotted
  deriving DecidableEq, Repr

inductive Item where
  | value (v : Toml)
  | table (origin : Origin) (entries : List (String × Item))
  /-- A list of tables that headers add to, the last first. -/
  | tables (elements : List (List (String × Item)))

/-- A key: its name, after the parts that lead to it. -/
structure Key where
  path : List String
  name : String

abbrev Entries := List (String × Item)

mutual

def Item.toToml : Item → Toml
  | .value v => v
  | .table _ entries => .table (fieldsOf entries)
  | .tables elements => .array (tablesOf elements).reverse

def fieldsOf : List (String × Item) → List (String × Toml)
  | [] => []
  | (key, item) :: rest => (key, item.toToml) :: fieldsOf rest

def tablesOf : List (List (String × Item)) → List Toml
  | [] => []
  | entries :: rest => .table (fieldsOf entries) :: tablesOf rest

end

/-- The entries with something else under a key; a new key comes last. -/
def put (entries : Entries) (key : String) (item : Item) : Entries :=
  match entries with
  | [] => [(key, item)]
  | (k, old) :: rest => if k = key then (k, item) :: rest else (k, old) :: put rest key item

/-- The entries with a change to the table that a path leads to. Tables that the path lacks are
made, of the origin `made`; a list of tables stands for its last element. A key with dots does not
lead into a table that has a header of its own. -/
def changeAt (made : Origin) (change : Origin → Entries → Option Entries) :
    List String → Origin → Entries → Option Entries
  | [], origin, entries => change origin entries
  | key :: path, _, entries =>
    match entries.lookup key with
    | none => (changeAt made change path made []).map fun t => put entries key (.table made t)
    | some (.value _) => none
    | some (.table origin inner) =>
      if made = .dotted && origin = .declared then none
      else (changeAt made change path origin inner).map fun t => put entries key (.table origin t)
    | some (.tables (last :: others)) =>
      (changeAt made change path .declared last).map fun t =>
        put entries key (.tables (t :: others))
    | some (.tables []) => none

/-- The entries with a value under a key. A key with dots does not reach what a header has opened,
and no key has two values. -/
def assign (key : Key) (v : Toml) (entries : Entries) : Option Entries :=
  changeAt .dotted (fun origin entries =>
    if !key.path.isEmpty && origin != .dotted then none
    else if (entries.lookup key.name).isSome then none
    else some (put entries key.name (.value v))) key.path .declared entries

/-- The entries after the header of a table. A table has one header. -/
def declare (key : Key) (entries : Entries) : Option Entries :=
  changeAt .implied (fun _ entries =>
    match entries.lookup key.name with
    | none => some (put entries key.name (.table .declared []))
    | some (.table .implied inner) => some (put entries key.name (.table .declared inner))
    | some _ => none) key.path .declared entries

/-- The entries after the header of another element in a list of tables. -/
def declareElement (key : Key) (entries : Entries) : Option Entries :=
  changeAt .implied (fun _ entries =>
    match entries.lookup key.name with
    | none => some (put entries key.name (.tables [[]]))
    | some (.tables elements) => some (put entries key.name (.tables ([] :: elements)))
    | some _ => none) key.path .declared entries

def assignIn (table : List String) (key : Key) (v : Toml) (entries : Entries) : Option Entries :=
  changeAt .implied (fun _ entries => assign key v entries) table .declared entries

end FermiQuiz.Toml
