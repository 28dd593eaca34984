import Mathlib
import FermiQuiz.Proofs.Numbered
import FermiQuiz.Proofs.Sheet.Saved

/-!
# What stands where in a sheet

Whatever stands between commas in a measured cell has a row, a column and a place in the cell. All
of it is taken in this order: what can be read makes the facts, and the rest is listed as broken.
-/

namespace FermiQuiz

namespace Sheet

/-! ### Places -/

/-- A row below the header, a column, and a place between the commas of a cell. -/
structure Address where
  row : ℕ
  column : ℕ
  place : ℕ

/-- Rows come first, then columns, then places in a cell. -/
def Address.Before (a b : Address) : Prop :=
  a.row < b.row ∨
    a.row = b.row ∧ (a.column < b.column ∨ a.column = b.column ∧ a.place < b.place)

def columnName? (header : List String) (column : ℕ) : Option String :=
  (header[column]?).map fun name => Text.lower (Text.trim name)

/-- The column that says what the rows are about: the first with its name. -/
structure IsThingColumn (header : List String) (thingColumn : ℕ) : Prop where
  named : columnName? header thingColumn = some "thing"
  first : ∀ column < thingColumn, columnName? header column ≠ some "thing"

/-- At an address stands a text that is not blank, in a row about a thing and a column with a
measurement. -/
structure IsPieceAt (header : List String) (rest : List (List String)) (thingColumn : ℕ)
    (a : Address) (p : Piece) : Prop where
  other : a.column ≠ thingColumn
  named : columnName? header a.column = some p.measurement
  measured : p.measurement ≠ "tags" ∧ p.measurement ≠ ""
  cells : ∃ cells, rest[a.row]? = some cells ∧
    (cells[thingColumn]?).map Text.trim = some p.thing ∧
    ∃ cell, cells[a.column]? = some cell ∧ ((Text.splitAt ',' cell.toList)[a.place]?).map
      (fun cs => String.ofList (Text.trimChars cs)) = some p.text
  thing : p.thing ≠ ""
  text : p.text ≠ ""

/-! ### The pieces with their places -/

/-- The texts of a cell with their places. -/
def cellPlaces (cell : String) : List (ℕ × String) :=
  numbered (fun _ text => if text = "" then [] else [text]) 0
    ((Text.splitAt ',' cell.toList).map fun cs => String.ofList (Text.trimChars cs))

/-- The measurements of a row with their columns and places. -/
def rowPlaces (thingColumn : ℕ) (thing : String) (start : ℕ) (names cells : List String) :
    List (ℕ × ℕ × Piece) :=
  numbered (fun column named => if isMeasured thingColumn column named.1 then
      (cellPlaces named.2).map fun placed => (placed.1, ⟨thing, named.1, placed.2⟩)
    else []) start (names.zip cells)

/-- The measurements of a sheet with their rows, columns and places. -/
def sheetPlaces (names : List String) (thingColumn : ℕ) (rest : List (List String)) :
    List (ℕ × ℕ × ℕ × Piece) :=
  numbered (fun _ cells => (rowThing? thingColumn cells).elim [] fun thing =>
    rowPlaces thingColumn thing 0 names cells) 0 rest

theorem map_snd_cellPlaces (cell : String) : (cellPlaces cell).map Prod.snd = cellTexts cell := by
  rw [cellPlaces, map_snd_numbered, cellTexts]
  generalize (Text.splitAt ',' cell.toList).map (fun cs => String.ofList (Text.trimChars cs)) =
    texts
  induction texts with
  | nil => rfl
  | cons text texts ih =>
    rw [List.flatMap_cons, ih, List.filter_cons]
    split <;> simp_all

theorem map_rowPlaces (thingColumn : ℕ) (thing : String) (start : ℕ) (names cells : List String) :
    (rowPlaces thingColumn thing start names cells).map (·.2.2) =
      rowPieces thingColumn thing start names cells := by
  induction names generalizing start cells with
  | nil => cases cells <;> rfl
  | cons name names ih =>
    cases cells with
    | nil => rfl
    | cons cell cells =>
      rw [rowPieces, ← ih, ← map_snd_cellPlaces, rowPlaces, List.zip_cons_cons, numbered,
        List.map_append, rowPlaces]
      congr 1
      dsimp only
      split
      · rw [List.map_map, List.map_map, List.map_map]
        rfl
      · rfl

theorem map_sheetPlaces (names : List String) (thingColumn : ℕ) (rest : List (List String)) :
    (sheetPlaces names thingColumn rest).map (·.2.2.2) = pieces names thingColumn rest := by
  have numbers : (sheetPlaces names thingColumn rest).map (·.2.2.2) =
      ((sheetPlaces names thingColumn rest).map Prod.snd).map (·.2.2) := by
    rw [List.map_map]
    rfl
  rw [numbers, sheetPlaces, map_snd_numbered, List.map_flatMap, pieces]
  refine List.flatMap_congr fun cells _ => ?_
  cases rowThing? thingColumn cells with
  | none => rfl
  | some thing => exact map_rowPlaces thingColumn thing 0 names cells

theorem pairwise_cellPlaces (cell : String) :
    (cellPlaces cell).Pairwise fun x y => x.1 < y.1 := by
  have sorted : ∀ (i : ℕ) (text : String),
      (if text = "" then [] else [text]).Pairwise fun _ _ => False := by
    intro i text
    split <;> simp
  exact (pairwise_numbered sorted 0).imp fun before => by simpa using before

theorem pairwise_rowPlaces (thingColumn : ℕ) (thing : String) (names cells : List String) :
    (rowPlaces thingColumn thing 0 names cells).Pairwise fun x y =>
      x.1 < y.1 ∨ x.1 = y.1 ∧ x.2.1 < y.2.1 := by
  refine pairwise_numbered (r := fun (x y : ℕ × Piece) => x.1 < y.1) (fun column named => ?_) 0
  split
  · rw [List.pairwise_map]
    exact pairwise_cellPlaces named.2
  · exact List.Pairwise.nil

theorem pairwise_sheetPlaces (names : List String) (thingColumn : ℕ) (rest : List (List String)) :
    (sheetPlaces names thingColumn rest).Pairwise fun x y => x.1 < y.1 ∨
      x.1 = y.1 ∧ (x.2.1 < y.2.1 ∨ x.2.1 = y.2.1 ∧ x.2.2.1 < y.2.2.1) := by
  refine pairwise_numbered (r := fun (x y : ℕ × ℕ × Piece) =>
    x.1 < y.1 ∨ x.1 = y.1 ∧ x.2.1 < y.2.1) (fun row cells => ?_) 0
  cases rowThing? thingColumn cells with
  | none => exact List.Pairwise.nil
  | some thing => exact pairwise_rowPlaces thingColumn thing names cells

/-! ### What stands at a place -/

theorem mem_cellPlaces_iff {cell text : String} {place : ℕ} :
    (place, text) ∈ cellPlaces cell ↔ ((Text.splitAt ',' cell.toList)[place]?).map
      (fun cs => String.ofList (Text.trimChars cs)) = some text ∧ text ≠ "" := by
  rw [cellPlaces, mem_numbered_iff]
  simp only [List.getElem?_map, Nat.zero_add]
  constructor
  · rintro ⟨k, found, rfl, at_place, member⟩
    split at member
    · cases member
    · next nonempty =>
      rw [List.mem_singleton.mp member]
      exact ⟨at_place, nonempty⟩
  · rintro ⟨at_place, nonempty⟩
    refine ⟨place, text, rfl, at_place, ?_⟩
    rw [if_neg nonempty]
    exact List.mem_singleton_self text

theorem mem_rowPlaces_iff {thingColumn column place : ℕ} {thing : String}
    {names cells : List String} {p : Piece} :
    (column, place, p) ∈ rowPlaces thingColumn thing 0 names cells ↔
      isMeasured thingColumn column p.measurement = true ∧ names[column]? = some p.measurement ∧
        p.thing = thing ∧
        ∃ cell, cells[column]? = some cell ∧ (place, p.text) ∈ cellPlaces cell := by
  rw [rowPlaces, mem_numbered_iff]
  simp only [Nat.zero_add, List.getElem?_zip_eq_some]
  constructor
  · rintro ⟨k, ⟨name, cell⟩, rfl, ⟨at_name, at_cell⟩, member⟩
    split at member
    · next measured =>
      obtain ⟨⟨place', text⟩, stands, same⟩ := List.mem_map.mp member
      cases same
      exact ⟨measured, at_name, rfl, cell, at_cell, stands⟩
    · cases member
  · rintro ⟨measured, at_name, rfl, cell, at_cell, member⟩
    refine ⟨column, (p.measurement, cell), rfl, ⟨at_name, at_cell⟩, ?_⟩
    rw [if_pos measured]
    exact List.mem_map.mpr ⟨(place, p.text), member, rfl⟩

theorem mem_sheetPlaces_iff {names : List String} {thingColumn row column place : ℕ}
    {rest : List (List String)} {p : Piece} :
    (row, column, place, p) ∈ sheetPlaces names thingColumn rest ↔
      ∃ cells, rest[row]? = some cells ∧ rowThing? thingColumn cells = some p.thing ∧
        (column, place, p) ∈ rowPlaces thingColumn p.thing 0 names cells := by
  rw [sheetPlaces, mem_numbered_iff]
  simp only [Nat.zero_add]
  constructor
  · rintro ⟨k, cells, rfl, at_row, member⟩
    cases about : rowThing? thingColumn cells with
    | none =>
      rw [about] at member
      cases member
    | some thing =>
      rw [about] at member
      obtain rfl := (mem_rowPlaces_iff.mp member).2.2.1
      exact ⟨cells, at_row, about, member⟩
  · rintro ⟨cells, at_row, about, member⟩
    refine ⟨row, cells, rfl, at_row, ?_⟩
    rw [about]
    exact member

theorem rowThing?_eq_some_iff {thingColumn : ℕ} {cells : List String} {thing : String} :
    rowThing? thingColumn cells = some thing ↔
      (cells[thingColumn]?).map Text.trim = some thing ∧ thing ≠ "" := by
  unfold rowThing?
  cases (cells[thingColumn]?).map Text.trim with
  | none => simp
  | some found =>
    dsimp only
    split
    · next blank => simp [blank, eq_comm]
    · next filled =>
      constructor
      · rintro ⟨⟩
        exact ⟨rfl, filled⟩
      · exact fun h => h.1

theorem isMeasured_iff {thingColumn column : ℕ} {name : String} :
    isMeasured thingColumn column name = true ↔
      column ≠ thingColumn ∧ name ≠ "tags" ∧ name ≠ "" := by
  simp [isMeasured, and_assoc]

/-- The pieces of a sheet with their addresses. -/
def places (names : List String) (thingColumn : ℕ) (rest : List (List String)) :
    List (Address × Piece) :=
  (sheetPlaces names thingColumn rest).map fun placed =>
    (⟨placed.1, placed.2.1, placed.2.2.1⟩, placed.2.2.2)

theorem mem_places_iff {header : List String} {rest : List (List String)} {thingColumn : ℕ}
    {a : Address} {p : Piece} :
    (a, p) ∈ places (header.map fun name => Text.lower (Text.trim name)) thingColumn rest ↔
      IsPieceAt header rest thingColumn a p := by
  have placed : (a, p) ∈ places (header.map fun name => Text.lower (Text.trim name)) thingColumn
      rest ↔ (a.row, a.column, a.place, p) ∈
        sheetPlaces (header.map fun name => Text.lower (Text.trim name)) thingColumn rest := by
    rw [places, List.mem_map]
    constructor
    · rintro ⟨placed, member, same⟩
      cases same
      exact member
    · exact fun member => ⟨_, member, rfl⟩
  rw [placed, mem_sheetPlaces_iff]
  simp only [mem_rowPlaces_iff, mem_cellPlaces_iff, rowThing?_eq_some_iff, isMeasured_iff,
    List.getElem?_map]
  constructor
  · rintro ⟨cells, at_row, ⟨about, thing⟩, ⟨other, measured⟩, named, -, cell, at_cell, at_place,
      text⟩
    exact ⟨other, named, measured, ⟨cells, at_row, about, cell, at_cell, at_place⟩, thing, text⟩
  · rintro ⟨other, named, measured, ⟨cells, at_row, about, cell, at_cell, at_place⟩, thing, text⟩
    exact ⟨cells, at_row, ⟨about, thing⟩, ⟨other, measured⟩, named, trivial, cell, at_cell,
      at_place, text⟩

theorem map_snd_places (names : List String) (thingColumn : ℕ) (rest : List (List String)) :
    (places names thingColumn rest).map Prod.snd = pieces names thingColumn rest := by
  rw [places, List.map_map, ← map_sheetPlaces]
  rfl

theorem pairwise_places (names : List String) (thingColumn : ℕ) (rest : List (List String)) :
    (places names thingColumn rest).Pairwise fun x y => x.1.Before y.1 :=
  List.pairwise_map.mpr (pairwise_sheetPlaces names thingColumn rest)

theorem columnName?_eq (header : List String) (column : ℕ) : columnName? header column =
    (header.map fun name => Text.lower (Text.trim name))[column]? :=
  List.getElem?_map.symm

theorem exists_thingColumn {header : List String} {column : ℕ}
    (named : columnName? header column = some "thing") : ∃ thingColumn,
      (header.map fun name => Text.lower (Text.trim name)).findIdx? (· == "thing") =
        some thingColumn := by
  rw [columnName?_eq] at named
  rw [← Option.isSome_iff_exists, List.findIdx?_isSome]
  exact List.any_eq_true.mpr ⟨"thing", List.mem_of_getElem? named, rfl⟩

theorem findIdx?_eq_some_iff {header : List String} {thingColumn : ℕ} :
    (header.map fun name => Text.lower (Text.trim name)).findIdx? (· == "thing") =
      some thingColumn ↔ IsThingColumn header thingColumn := by
  rw [List.findIdx?_eq_some_iff_getElem]
  constructor
  · rintro ⟨bound, named, first⟩
    refine ⟨?_, fun column before named' => ?_⟩
    · rw [columnName?_eq, List.getElem?_eq_getElem bound, eq_of_beq named]
    · rw [columnName?_eq, List.getElem?_eq_getElem (before.trans bound), Option.some_inj] at named'
      exact first column before (beq_iff_eq.mpr named')
  · rintro ⟨named, first⟩
    rw [columnName?_eq] at named
    obtain ⟨bound, named⟩ := List.getElem?_eq_some_iff.mp named
    refine ⟨bound, beq_iff_eq.mpr named, fun column before named' => ?_⟩
    refine first column before ?_
    rw [columnName?_eq, List.getElem?_eq_getElem (before.trans bound), eq_of_beq named']

/-- What makes a fact: the thing and the measurement of a piece and the parts of its entry. Unless
it is specified what was measured, the measurement names the fact. -/
def IsFactOf (stamp : String) (p : Piece) (f : Fact) : Prop :=
  ∃ entry ∈ Entry.read? p.text, f = {
    thing := p.thing
    measurement := p.measurement
    specifier := entry.specifier
    quantity := entry.quantity
    note := entry.note
    name := (if entry.specifier = "" then p.measurement else entry.specifier) ++ " of " ++ p.thing
    generated := stamp }

theorem fact?_eq_some_iff {stamp : String} {p : Piece} {f : Fact} :
    p.fact? stamp = some f ↔ IsFactOf stamp p f := by
  rw [Piece.fact?, Option.map_eq_some_iff]
  constructor
  · rintro ⟨entry, read, rfl⟩
    exact ⟨entry, read, rfl⟩
  · rintro ⟨entry, read, rfl⟩
    exact ⟨entry, read, rfl⟩

end Sheet

theorem forall₂_filterMap {α β : Type} (g : α → Option β) (l : List α) :
    List.Forall₂ (fun a b => g a = some b) (l.filter fun a => (g a).isSome) (l.filterMap g) := by
  induction l with
  | nil => exact .nil
  | cons a l ih =>
    cases read : g a with
    | none => simpa [read] using ih
    | some b => simpa [read] using ih

/-! ### Imports -/

section

open Sheet

/-- All that stands in the measured cells of a sheet, in its order. -/
structure Sheet.IsListing (header : List String) (rest : List (List String)) (thingColumn : ℕ)
    (placed : List (Address × Piece)) : Prop where
  ordered : placed.Pairwise fun x y => x.1.Before y.1
  mem_iff : ∀ a p, (a, p) ∈ placed ↔ IsPieceAt header rest thingColumn a p

theorem exists_importFacts {text : String} {names : List String} {rest : List (List String)}
    {thingColumn : ℕ} (stamp : String) (sheet : columns text = (names, rest))
    (first : names.findIdx? (· == "thing") = some thingColumn) :
    ∃ imported, importFacts stamp text = .ok imported ∧
      List.Forall₂ (IsFactOf stamp)
        ((pieces names thingColumn rest).filter fun p => (Entry.read? p.text).isSome)
        imported.facts ∧
      imported.broken =
        (pieces names thingColumn rest).filter fun p => (Entry.read? p.text).isNone := by
  have read (p : Piece) : (p.fact? stamp).isSome = (Entry.read? p.text).isSome :=
    Option.isSome_map
  have unread (p : Piece) : (p.fact? stamp).isNone = (Entry.read? p.text).isNone :=
    Option.isNone_map
  rw [importFacts, sheet]
  simp only [first, unread]
  refine ⟨_, rfl, ?_, rfl⟩
  simp only [← read]
  have made := forall₂_filterMap (Piece.fact? stamp) (pieces names thingColumn rest)
  exact made.imp fun p f => fact?_eq_some_iff.mp

/-- An import accounts for all that stands in the measured cells of a sheet: in the order in which
it stands there, what can be read makes the facts, and the rest is broken. -/
theorem importFacts_listing (stamp : String) {text : String} {header : List String}
    {rest : List (List String)} (sheet : rows text = header :: rest)
    (about : ∃ column, columnName? header column = some "thing") :
    ∃ thingColumn placed imported, IsThingColumn header thingColumn ∧
      IsListing header rest thingColumn placed ∧
      importFacts stamp text = .ok imported ∧
      List.Forall₂ (IsFactOf stamp)
        ((placed.map Prod.snd).filter fun p => (Entry.read? p.text).isSome) imported.facts ∧
      imported.broken = (placed.map Prod.snd).filter fun p => (Entry.read? p.text).isNone := by
  obtain ⟨column, named⟩ := about
  obtain ⟨thingColumn, first⟩ := exists_thingColumn named
  have columns : columns text = (header.map fun name => Text.lower (Text.trim name), rest) := by
    rw [Sheet.columns, sheet]
  obtain ⟨imported, made, facts, broken⟩ := exists_importFacts stamp columns first
  rw [← map_snd_places] at facts broken
  refine ⟨thingColumn, _, imported, findIdx?_eq_some_iff.mp first, ?_, made, facts, broken⟩
  exact ⟨pairwise_places _ _ _, fun _ _ => mem_places_iff⟩

/-- A row without a thing, and one that ends before the column of lengths. -/
def raggedSheet : String := "Thing\tTags\tLength\nstar\thot\t5 m,, heavy\n\t\t3 m\nsun\n"

theorem importFacts_listing_raggedSheet :
    ∃ imported, importFacts "now" raggedSheet = .ok imported ∧
      imported.facts.map Fact.name = ["length of star"] ∧
      imported.broken = [⟨"star", "length", "heavy"⟩] := by
  have sheet : rows raggedSheet = [["Thing", "Tags", "Length"], ["star", "hot", "5 m,, heavy"],
      ["", "", "3 m"], ["sun"]] := by
    decide +kernel
  have about : columnName? ["Thing", "Tags", "Length"] 0 = some "thing" := by decide +kernel
  obtain ⟨thingColumn, placed, imported, -, -, made, -, -⟩ :=
    importFacts_listing "now" sheet ⟨0, about⟩
  have columns : columns raggedSheet = (["thing", "tags", "length"],
      [["star", "hot", "5 m,, heavy"], ["", "", "3 m"], ["sun"]]) := by
    decide +kernel
  obtain ⟨imported', made', -, broken⟩ := exists_importFacts "now" columns rfl
  rw [made] at made'
  cases made'
  refine ⟨imported, made, ?_, ?_⟩
  · rw [facts_of_importFacts made]
    decide +kernel
  · rw [broken]
    decide +kernel

end

end FermiQuiz
