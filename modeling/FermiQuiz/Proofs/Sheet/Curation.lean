import Mathlib
import FermiQuiz.Sheet.Import
import FermiQuiz.Proofs.Sheet.Saved

/-!
# Sheets that are imported again

A sheet that has not changed yields the same facts again, under a new time. What was curated in them
comes back by their keys, from the last fact with each key. So all of it is kept exactly if facts
with one key were curated alike.
-/

namespace FermiQuiz

structure Curation where
  name : String
  quality : Float
  generated : String
  image : String

namespace Fact

def curation (f : Fact) : Curation := ⟨f.name, f.quality, f.generated, f.image⟩

/-- The measurement of one fact under the curation of another. -/
def recurate (f : Fact) (c : Curation) : Fact :=
  { f with name := c.name, quality := c.quality, generated := c.generated, image := c.image }

/-- Nothing but the curation of a fact was changed, and a name was left in it. -/
def IsCuratedFrom (g f : Fact) : Prop := g = f.recurate g.curation ∧ g.name ≠ ""

variable {f g last : Fact} {c : Curation}

theorem IsCuratedFrom.key_eq (h : g.IsCuratedFrom f) : g.key = f.key := by
  rw [h.1]
  rfl

theorem recurate_eq_iff (h : g.IsCuratedFrom f) : f.recurate c = g ↔ c = g.curation := by
  constructor
  · rintro rfl
    rfl
  · rintro rfl
    exact h.1.symm

/-- An old picture is kept even if it is none, because a fact from a sheet has no picture. -/
theorem curatedBy_eq (name : last.name ≠ "") (image : f.image = "") :
    f.curatedBy last = f.recurate last.curation := by
  unfold curatedBy recurate curation
  rw [if_neg name, image]
  split
  · next none => rw [none]
  · rfl

end Fact

/-! ### Carrying over -/

section

variable {existing curated fresh : List Fact} {f g last : Fact} {key : FactKey}

theorem mem_of_lastWithKey? (h : lastWithKey? existing key = some last) :
    last ∈ existing ∧ last.key = key := by
  unfold lastWithKey? at h
  have same := List.find?_some h
  exact ⟨List.mem_reverse.mp (List.mem_of_find?_eq_some h), eq_of_beq same⟩

theorem isSome_lastWithKey? (existing : List Fact) (key : FactKey) :
    (lastWithKey? existing key).isSome = decide (key ∈ existing.map Fact.key) := by
  rw [Bool.eq_iff_iff, decide_eq_true_eq, List.mem_map, lastWithKey?, List.find?_isSome]
  simp

theorem exists_lastWithKey? (h : f ∈ existing) :
    ∃ last, lastWithKey? existing f.key = some last := by
  rw [← Option.isSome_iff_exists, isSome_lastWithKey?, decide_eq_true_eq]
  exact List.mem_map_of_mem h

/-- In a list, the last fact with the key of `g` is curated as `g` is. -/
def CuratedAs (existing : List Fact) (g : Fact) : Prop :=
  ∀ last, lastWithKey? existing g.key = some last → last.curation = g.curation

theorem carried_eq_iff (named : ∀ last ∈ existing, last.name ≠ "") (bare : f.image = "")
    (h : g.IsCuratedFrom f) (present : ∃ last, lastWithKey? existing g.key = some last) :
    carryOver existing [f] = [g] ↔ CuratedAs existing g := by
  obtain ⟨last, found⟩ := present
  have name := named last (mem_of_lastWithKey? found).1
  unfold carryOver CuratedAs
  rw [List.map_singleton, List.singleton_inj, ← h.key_eq, found]
  dsimp only
  rw [Fact.curatedBy_eq name bare, Fact.recurate_eq_iff h]
  constructor
  · intro same last' again
    cases again
    exact same
  · intro same
    exact same last rfl

theorem carryOver_eq_iff_forall (named : ∀ last ∈ existing, last.name ≠ "")
    (bare : ∀ f ∈ fresh, f.image = "")
    (changed : List.Forall₂ (fun f g => g.IsCuratedFrom f) fresh curated)
    (present : ∀ g ∈ curated, ∃ last, lastWithKey? existing g.key = some last) :
    carryOver existing fresh = curated ↔ ∀ g ∈ curated, CuratedAs existing g := by
  induction changed with
  | nil => exact iff_of_true rfl (List.forall_mem_nil _)
  | @cons f g fresh curated first rest ih =>
    rw [List.forall_mem_cons] at bare present
    have head := carried_eq_iff named bare.1 first present.1
    have tail := ih bare.2 present.2
    rw [List.forall_mem_cons, ← head, ← tail]
    unfold carryOver
    rw [List.map_cons, List.map_singleton, List.cons.injEq, List.singleton_inj]

theorem forall_curatedAs_iff :
    (∀ g ∈ curated, CuratedAs curated g) ↔
      ∀ f ∈ curated, ∀ g ∈ curated, f.key = g.key → f.curation = g.curation := by
  constructor
  · intro all f f_mem g g_mem same
    obtain ⟨last, found⟩ := exists_lastWithKey? g_mem
    have as_g := all g g_mem last found
    rw [← same] at found
    rw [← all f f_mem last found, as_g]
  · intro alike g g_mem last found
    obtain ⟨last_mem, same⟩ := mem_of_lastWithKey? found
    exact alike last last_mem g g_mem same

theorem name_of_curated (changed : List.Forall₂ (fun f g => g.IsCuratedFrom f) fresh curated) :
    ∀ g ∈ curated, g.name ≠ "" := by
  induction changed with
  | nil => exact List.forall_mem_nil _
  | cons first _ ih => exact List.forall_mem_cons.mpr ⟨first.2, ih⟩

theorem carryOver_eq_iff (bare : ∀ f ∈ fresh, f.image = "")
    (changed : List.Forall₂ (fun f g => g.IsCuratedFrom f) fresh curated) :
    carryOver curated fresh = curated ↔
      ∀ f ∈ curated, ∀ g ∈ curated, f.key = g.key → f.curation = g.curation := by
  rw [carryOver_eq_iff_forall (name_of_curated changed) bare changed
    fun g member => exists_lastWithKey? member, forall_curatedAs_iff]

end

/-! ### The same sheet at two times -/

section

open Sheet

variable {earlier text : String} {imported : Imported}

theorem image_of_importFacts (h : importFacts earlier text = .ok imported) :
    ∀ f ∈ imported.facts, f.image = "" := by
  intro f member
  rw [facts_of_importFacts h] at member
  obtain ⟨p, -, made⟩ := List.mem_filterMap.mp member
  obtain ⟨entry, -, rfl⟩ := Option.map_eq_some_iff.mp made
  rfl

theorem Sheet.Piece.fact?_restamp (later : String) (p : Piece) :
    p.fact? later = (p.fact? earlier).map fun f => { f with generated := later } := by
  unfold Piece.fact?
  rw [Option.map_map]
  rfl

theorem importFacts_restamp (h : importFacts earlier text = .ok imported) (later : String) :
    ∃ again, importFacts later text = .ok again ∧
      again.facts = imported.facts.map fun f => { f with generated := later } := by
  obtain ⟨again, accepted⟩ : ∃ again, importFacts later text = .ok again := by
    unfold importFacts at h ⊢
    dsimp only at h ⊢
    split at h
    · cases h
    · exact ⟨_, rfl⟩
  refine ⟨again, accepted, ?_⟩
  rw [facts_of_importFacts accepted, facts_of_importFacts h, List.map_filterMap]
  exact List.filterMap_congr fun p _ => p.fact?_restamp later

/-- A sheet that is imported again gives the curated facts back exactly if any two of them with one
key were curated alike. -/
theorem carryOver_reimport {curated : List Fact}
    (h : importFacts earlier text = .ok imported)
    (changed : List.Forall₂ (fun f g => g.IsCuratedFrom f) imported.facts curated)
    (later : String) :
    ∃ again, importFacts later text = .ok again ∧
      (carryOver curated again.facts = curated ↔
        ∀ f ∈ curated, ∀ g ∈ curated, f.key = g.key → f.curation = g.curation) := by
  obtain ⟨again, accepted, restamped⟩ := importFacts_restamp h later
  refine ⟨again, accepted, carryOver_eq_iff (image_of_importFacts accepted) ?_⟩
  -- The new time is curated away like the old one.
  rw [restamped, List.forall₂_map_left_iff]
  exact changed

end

/-! ### A star with two lengths -/

deriving instance DecidableEq for Quantity, Fact

def starSheet : String := "thing\tlength\nstar\t5 m, 6 m\n"

def starLengths (first second : Curation) : List Fact :=
  let star : Fact := { quantity := ⟨5.0, "m"⟩, thing := "star", measurement := "length" }
  [star.recurate first, { star with quantity := ⟨6.0, "m"⟩ }.recurate second]

theorem exists_importFacts_starSheet :
    ∃ imported, importFacts "then" starSheet = .ok imported ∧
      imported.facts =
        starLengths ⟨"length of star", 0.0, "then", ""⟩ ⟨"length of star", 0.0, "then", ""⟩ := by
  have columns : Sheet.columns starSheet = (["thing", "length"], [["star", "5 m, 6 m"]]) := by
    decide +kernel
  obtain ⟨imported, made⟩ : ∃ imported, importFacts "then" starSheet = .ok imported := by
    rw [importFacts, columns]
    exact ⟨_, rfl⟩
  refine ⟨imported, made, ?_⟩
  rw [facts_of_importFacts made]
  decide +kernel

theorem starLengths_curated {c₁ c₂ : Curation} (first second : Curation) (name₁ : first.name ≠ "")
    (name₂ : second.name ≠ "") :
    List.Forall₂ (fun f g => g.IsCuratedFrom f) (starLengths c₁ c₂) (starLengths first second) :=
  .cons ⟨rfl, name₁⟩ (.cons ⟨rfl, name₂⟩ .nil)

def sharedName : List Fact :=
  let both : Curation := ⟨"size of star", 0.9, "then", "star.png"⟩
  starLengths both both

def ownNames : List Fact :=
  starLengths ⟨"height of star", 0.0, "then", ""⟩ ⟨"width of star", 0.0, "then", ""⟩

/-- Two lengths that got the same name keep it. -/
theorem carryOver_reimport_sharedName :
    ∃ imported again, importFacts "then" starSheet = .ok imported ∧
      List.Forall₂ (fun f g => g.IsCuratedFrom f) imported.facts sharedName ∧
      importFacts "now" starSheet = .ok again ∧ carryOver sharedName again.facts = sharedName := by
  obtain ⟨imported, made, facts⟩ := exists_importFacts_starSheet
  have changed : List.Forall₂ (fun f g => g.IsCuratedFrom f) imported.facts sharedName := by
    rw [facts]
    exact starLengths_curated _ _ (by decide) (by decide)
  obtain ⟨again, accepted, same⟩ := carryOver_reimport made changed "now"
  have alike : ∀ f ∈ sharedName, f.curation = ⟨"size of star", 0.9, "then", "star.png"⟩ := by
    rintro f (_ | ⟨_, _ | ⟨_, ⟨⟩⟩⟩) <;> rfl
  refine ⟨imported, again, made, changed, accepted, same.mpr fun f f_mem g g_mem _ => ?_⟩
  rw [alike f f_mem, alike g g_mem]

/-- Two lengths that got names of their own both come back under the second name. -/
theorem carryOver_ownNames_ne :
    ∃ imported again, importFacts "then" starSheet = .ok imported ∧
      List.Forall₂ (fun f g => g.IsCuratedFrom f) imported.facts ownNames ∧
      importFacts "now" starSheet = .ok again ∧ carryOver ownNames again.facts ≠ ownNames := by
  obtain ⟨imported, made, facts⟩ := exists_importFacts_starSheet
  have changed : List.Forall₂ (fun f g => g.IsCuratedFrom f) imported.facts ownNames := by
    rw [facts]
    exact starLengths_curated _ _ (by decide) (by decide)
  obtain ⟨again, accepted, restamped⟩ := importFacts_restamp made "now"
  refine ⟨imported, again, made, changed, accepted, fun same => ?_⟩
  rw [restamped, facts] at same
  revert same
  decide +kernel

end FermiQuiz
