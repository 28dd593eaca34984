import Mathlib
import FermiQuiz.Json.Record
import FermiQuiz.Proofs.Json.Text
import FermiQuiz.Proofs.Json.Tokens

/-!
# Records that are read back

A record is written with the fields that it has, under different plain names. Reading finds under
each name what was written there, and nothing where nothing was.
-/

namespace FermiQuiz

/-! ### Lists of optional results -/

section

variable {α β : Type} {f : α → Option β} {xs : List α} {ys : List β}

theorem mapM_eq_some_iff : xs.mapM f = some ys ↔ List.Forall₂ (fun x y => f x = some y) xs ys := by
  induction xs generalizing ys with
  | nil =>
    rw [List.mapM_nil, List.forall₂_nil_left_iff]
    constructor
    · intro same
      cases same
      rfl
    · rintro rfl
      rfl
  | cons x xs ih =>
    rw [List.mapM_cons]
    constructor
    · intro same
      obtain ⟨y, first, same⟩ := Option.bind_eq_some_iff.mp same
      obtain ⟨zs, others, same⟩ := Option.bind_eq_some_iff.mp same
      cases same
      exact .cons first (ih.mp others)
    · intro all
      cases all with
      | cons first others =>
        rw [first, ih.mpr others]
        rfl

theorem isSome_mapM_iff : (xs.mapM f).isSome = true ↔ ∀ x ∈ xs, (f x).isSome = true := by
  induction xs with
  | nil => simp
  | cons x xs ih =>
    rw [List.mapM_cons, List.forall_mem_cons, ← ih]
    cases f x with
    | none => simp
    | some y => cases xs.mapM f <;> simp

end

namespace Json

/-! ### Fields -/

def present (parts : List (String × Option Json)) : List (List Char × Json) :=
  parts.filterMap fun (name, v) => v.map fun v => (name.toList, v)

theorem present_append (parts parts' : List (String × Option Json)) :
    present (parts ++ parts') = present parts ++ present parts' :=
  List.filterMap_append

/-- A text that stands for itself when it is empty. -/
def unlessEmpty (s : String) : Option Json := if s = "" then none else some (ofText s)

theorem textUnlessEmpty_eq (name s : String) :
    textUnlessEmpty name s = present [(name, unlessEmpty s)] := by
  unfold textUnlessEmpty unlessEmpty
  by_cases empty : s = ""
  · rw [if_pos empty, if_pos empty]
    rfl
  · rw [if_neg empty, if_neg empty]
    rfl

/-- Names that are spelled as they are, none of them twice. -/
structure WellNamed (names : List String) : Prop where
  plain : ∀ name ∈ names, escape name.toList = name.toList
  distinct : names.Nodup

theorem mapM_unescape_present {parts : List (String × Option Json)}
    (plain : ∀ name ∈ parts.map Prod.fst, escape name.toList = name.toList) :
    (present parts).mapM (fun (key, v) => (unescape? key).map fun cs => (String.ofList cs, v)) =
      some (parts.filterMap fun (name, v) => v.map fun v => (name, v)) := by
  induction parts with
  | nil => rfl
  | cons p parts ih =>
    obtain ⟨name, v⟩ := p
    have others := ih fun name member => plain name (List.mem_cons_of_mem _ member)
    have key : unescape? name.toList = some name.toList := by
      have spelled := unescape?_escape name.toList
      rwa [plain name List.mem_cons_self] at spelled
    cases v with
    | none => exact others
    | some v =>
      change List.mapM _ ((name.toList, v) :: present parts) = _
      rw [List.mapM_cons, others]
      simp [key]

theorem filter_keyed {parts : List (String × Option Json)} (distinct : (parts.map Prod.fst).Nodup)
    {name : String} {v : Option Json} (member : (name, v) ∈ parts) :
    (parts.filterMap fun (name, v) => v.map fun v => (name, v)).filter (·.1 == name) =
      v.toList.map fun v => (name, v) := by
  induction parts with
  | nil => cases member
  | cons p parts ih =>
    rw [List.map_cons, List.nodup_cons] at distinct
    obtain ⟨first, w⟩ := p
    rcases List.mem_cons.mp member with same | member
    · cases same
      -- The names are distinct, so that no later field goes by this one.
      have none_left : (parts.filterMap fun (name, v) => v.map fun v => (name, v)).filter
          (·.1 == name) = [] := by
        rw [List.filter_eq_nil_iff]
        intro found listed same
        obtain ⟨q, member, made⟩ := List.mem_filterMap.mp listed
        obtain ⟨u, -, rfl⟩ := Option.map_eq_some_iff.mp made
        exact distinct.1 (List.mem_map.mpr ⟨q, member, eq_of_beq same⟩)
      cases v with
      | none => exact none_left
      | some v =>
        rw [List.filterMap_cons]
        simp only [Option.map_some, List.filter_cons, beq_self_eq_true, if_true]
        rw [none_left]
        rfl
    · have other : (first == name) = false := by
        rw [beq_eq_false_iff_ne]
        rintro rfl
        exact distinct.1 (List.mem_map.mpr ⟨_, member, rfl⟩)
      rw [← ih distinct.2 member]
      cases w with
      | none => rfl
      | some w =>
        rw [List.filterMap_cons]
        simp only [Option.map_some, List.filter_cons, other, Bool.false_eq_true, if_false]

/-- Any fields of a record are found by their names. -/
theorem record?_of_subset {parts asked : List (String × Option Json)}
    (named : WellNamed (parts.map Prod.fst)) (listed : asked ⊆ parts) :
    record? (asked.map Prod.fst) (.object (present parts)) = some (asked.map Prod.snd) := by
  rw [record?, mapM_unescape_present named.plain]
  change List.mapM _ (asked.map Prod.fst) = _
  rw [List.mapM_map, mapM_eq_some_iff, List.forall₂_map_right_iff, List.forall₂_same]
  rintro ⟨name, v⟩ member
  simp only [Function.comp_apply, filter_keyed named.distinct (listed member)]
  cases v with
  | none => rfl
  | some v => rfl

/-- A record is read back, field by field. -/
theorem record?_present {parts : List (String × Option Json)}
    (named : WellNamed (parts.map Prod.fst)) :
    record? (parts.map Prod.fst) (.object (present parts)) = some (parts.map Prod.snd) :=
  record?_of_subset named (List.Subset.refl parts)

theorem wellSpelled_object {parts : List (String × Option Json)}
    (named : WellNamed (parts.map Prod.fst)) (each : ∀ p ∈ parts, ∀ v ∈ p.2, v.WellSpelled) :
    (object (present parts)).WellSpelled := by
  refine .object ?_ ?_
  · rintro f listed
    obtain ⟨p, member, made⟩ := List.mem_filterMap.mp listed
    obtain ⟨v, -, rfl⟩ := Option.map_eq_some_iff.mp made
    exact ⟨p.1.toList, (named.plain p.1 (List.mem_map_of_mem member)).symm⟩
  · rintro f listed
    obtain ⟨p, member, made⟩ := List.mem_filterMap.mp listed
    obtain ⟨v, some_v, rfl⟩ := Option.map_eq_some_iff.mp made
    exact each p member v some_v

/-! ### Values of fields -/

theorem wellSpelled_ofText (s : String) : (ofText s).WellSpelled := .string s.toList

theorem wellSpelled_unlessEmpty (s : String) : ∀ v ∈ unlessEmpty s, v.WellSpelled := by
  intro v member
  unfold unlessEmpty at member
  split at member
  · cases member
  · cases member
    exact wellSpelled_ofText s

@[simp] theorem optional?_unlessEmpty (s : String) :
    optional? "" text? (unlessEmpty s) = some s := by
  unfold unlessEmpty
  by_cases empty : s = ""
  · rw [if_pos empty, empty]
    rfl
  · rw [if_neg empty]
    exact text?_ofText s

theorem list?_map {α : Type} {write : α → Json} {read : Json → Option α} {xs : List α}
    (each : ∀ x ∈ xs, read (write x) = some x) : list? read (.array (xs.map write)) = some xs := by
  rw [list?, List.mapM_map, mapM_eq_some_iff, List.forall₂_same]
  exact each

end Json

end FermiQuiz
