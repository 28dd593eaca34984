import Mathlib
import FermiQuiz.Proofs.Sheet.Curation

/-!
# What is carried over

A fact is curated as the last earlier fact with its key was, and stays as it is if there is none.
Its key is no part of its curation, so carrying over again finds the same earlier facts and changes
nothing more.
-/

namespace FermiQuiz

/-- Of the facts with a key, `last` is the last one listed. -/
def IsLastWithKey (existing : List Fact) (key : FactKey) (last : Fact) : Prop :=
  ∃ before after, existing = before ++ last :: after ∧ last.key = key ∧ ∀ g ∈ after, g.key ≠ key

/-- What becomes of a fact beside earlier facts. -/
inductive Fact.IsCarried (existing : List Fact) (f : Fact) : Fact → Prop
  | curated {last : Fact} (found : IsLastWithKey existing f.key last) :
    IsCarried existing f { f with
      quality := last.quality
      generated := last.generated
      name := if last.name = "" then f.name else last.name
      image := if last.image = "" then f.image else last.image }
  | unchanged (absent : ∀ old ∈ existing, old.key ≠ f.key) : IsCarried existing f f

/-! ### Finding the last -/

section

variable {existing facts carried : List Fact} {key : FactKey} {f g last : Fact}

theorem lastWithKey?_eq_some_iff :
    lastWithKey? existing key = some last ↔ IsLastWithKey existing key last := by
  rw [lastWithKey?, List.find?_eq_some_iff_append, IsLastWithKey]
  constructor
  · rintro ⟨same, after, before, parts, others⟩
    refine ⟨before.reverse, after.reverse, ?_, eq_of_beq same, fun g member => ?_⟩
    · rw [← List.reverse_reverse existing, parts]
      simp
    · simpa using others g (List.mem_reverse.mp member)
  · rintro ⟨before, after, rfl, same, others⟩
    refine ⟨beq_iff_eq.mpr same, after.reverse, before.reverse, by simp, fun g member => ?_⟩
    simpa using others g (List.mem_reverse.mp member)

theorem lastWithKey?_eq_none_iff :
    lastWithKey? existing key = none ↔ ∀ old ∈ existing, old.key ≠ key := by
  simp [lastWithKey?]

/-! ### One fact, and all -/

theorem Fact.isCarried_iff : f.IsCarried existing g ↔ carryOver existing [f] = [g] := by
  unfold carryOver
  rw [List.map_singleton, List.singleton_inj]
  constructor
  · rintro (found | absent)
    · rw [lastWithKey?_eq_some_iff.mpr found]
      rfl
    · rw [lastWithKey?_eq_none_iff.mpr absent]
  · intro same
    split at same
    · next absent =>
      rw [← same]
      exact .unchanged (lastWithKey?_eq_none_iff.mp absent)
    · next last found =>
      rw [← same]
      exact .curated (lastWithKey?_eq_some_iff.mp found)

theorem carryOver_cons (existing : List Fact) (f : Fact) (facts : List Fact) :
    carryOver existing (f :: facts) = carryOver existing [f] ++ carryOver existing facts := rfl

theorem forall₂_isCarried (existing facts : List Fact) :
    List.Forall₂ (Fact.IsCarried existing) facts (carryOver existing facts) := by
  induction facts with
  | nil => exact .nil
  | cons f facts ih => exact .cons (Fact.isCarried_iff.mpr rfl) ih

theorem carryOver_eq_of_forall₂ (h : List.Forall₂ (Fact.IsCarried existing) facts carried) :
    carryOver existing facts = carried := by
  induction h with
  | nil => rfl
  | cons first _ ih => rw [carryOver_cons, Fact.isCarried_iff.mp first, ih, List.singleton_append]

/-! ### Carrying over again -/

theorem Fact.curatedBy_curatedBy (f last : Fact) :
    (f.curatedBy last).curatedBy last = f.curatedBy last := by
  unfold curatedBy
  congr 1 <;> dsimp only <;> split <;> rfl

theorem Fact.IsCarried.key_eq (h : f.IsCarried existing g) : g.key = f.key := by
  cases h <;> rfl

theorem Fact.IsCarried.again (h : f.IsCarried existing g) : g.IsCarried existing g := by
  cases h with
  | @curated last found =>
    have again : (f.curatedBy last).IsCarried existing ((f.curatedBy last).curatedBy last) :=
      .curated found
    rwa [curatedBy_curatedBy] at again
  | unchanged absent => exact .unchanged absent

theorem forall₂_isCarried_again (h : List.Forall₂ (Fact.IsCarried existing) facts carried) :
    List.Forall₂ (Fact.IsCarried existing) carried carried := by
  induction h with
  | nil => exact .nil
  | cons first _ ih => exact .cons first.again ih

theorem carryOver_carryOver (existing facts : List Fact) :
    carryOver existing (carryOver existing facts) = carryOver existing facts :=
  carryOver_eq_of_forall₂ (forall₂_isCarried_again (forall₂_isCarried existing facts))

theorem carriedCount_carryOver (existing facts : List Fact) :
    carriedCount existing (carryOver existing facts) = carriedCount existing facts := by
  have keys : (carryOver existing facts).map Fact.key = facts.map Fact.key := by
    rw [← List.forall₂_eq_eq_eq, List.forall₂_map_left_iff, List.forall₂_map_right_iff]
    exact (forall₂_isCarried existing facts).flip.imp fun _ _ h => h.key_eq
  have counted (fs : List Fact) : carriedCount existing fs =
      (fs.map Fact.key).countP fun key => (lastWithKey? existing key).isSome := by
    rw [List.countP_map]
    rfl
  rw [counted, counted, keys]

end

/-- Facts keep their order and what they measure, and are curated by the last earlier fact with
their key. The count is that of the facts with a key among the earlier ones. The same again
changes nothing and counts as many. -/
theorem carryOver_by_last_with_key (existing facts : List Fact) :
    List.Forall₂ (Fact.IsCarried existing) facts (carryOver existing facts) ∧
      carriedCount existing facts =
        facts.countP (fun f => decide (f.key ∈ existing.map Fact.key)) ∧
      carryOver existing (carryOver existing facts) = carryOver existing facts ∧
      carriedCount existing (carryOver existing facts) = carriedCount existing facts := by
  refine ⟨forall₂_isCarried existing facts, ?_, carryOver_carryOver existing facts,
    carriedCount_carryOver existing facts⟩
  simp only [carriedCount, isSome_lastWithKey?]

end FermiQuiz
