import Mathlib
import FermiQuiz.Question

/-!
# The facts of a question

`Question.facts` lists the keys of a question's figures in order and without repetition, so two
questions have the same list exactly when they compare the same set of facts.
-/

namespace FermiQuiz

/-! ### The order of keys -/

namespace FactKey

theorem le_total (a b : FactKey) : (a.le b || b.le a) = true := by
  unfold FactKey.le
  grind

theorem le_trans {a b c : FactKey} (hab : a.le b = true) (hbc : b.le c = true) :
    a.le c = true := by
  unfold FactKey.le at *
  grind

theorem le_antisymm {a b : FactKey} (hab : a.le b = true) (hba : b.le a = true) : a = b := by
  obtain ⟨thing, measurement, specifier⟩ := a
  obtain ⟨thing', measurement', specifier'⟩ := b
  unfold FactKey.le at *
  grind

end FactKey

/-! ### Lists without repetition -/

section

variable {α : Type} [BEq α]

theorem eraseReps_loop (a : α) (xs acc : List α) :
    List.eraseRepsBy.loop (· == ·) a xs acc = acc.reverse ++ (a :: xs).eraseReps := by
  induction xs generalizing a acc with
  | nil => simp [List.eraseReps, List.eraseRepsBy, List.eraseRepsBy.loop]
  | cons b xs ih =>
    simp only [List.eraseReps, List.eraseRepsBy, List.eraseRepsBy.loop]
    split
    · exact ih a acc
    · rw [ih b (a :: acc), ih b [a]]
      simp

theorem eraseReps_cons_cons (a b : α) (xs : List α) :
    (a :: b :: xs).eraseReps =
      if a == b then (a :: xs).eraseReps else a :: (b :: xs).eraseReps := by
  simp only [List.eraseReps, List.eraseRepsBy, List.eraseRepsBy.loop]
  split
  · next same => rw [if_pos same]
  · next different =>
    rw [if_neg (by simp [different]), eraseReps_loop]
    rfl

variable [LawfulBEq α]

theorem mem_eraseReps_cons {a x : α} {xs : List α} :
    a ∈ (x :: xs).eraseReps ↔ a ∈ x :: xs := by
  induction xs generalizing x with
  | nil => rfl
  | cons y xs ih =>
    rw [eraseReps_cons_cons]
    split
    · next same =>
      obtain rfl := eq_of_beq same
      simp [ih]
    · rw [List.mem_cons, List.mem_cons, ih]

theorem mem_eraseReps {a : α} {xs : List α} : a ∈ xs.eraseReps ↔ a ∈ xs := by
  cases xs with
  | nil => rfl
  | cons x xs => exact mem_eraseReps_cons

/-- In a list ordered without ties, repetitions stand together, so that erasing them leaves no
entry twice. -/
theorem nodup_eraseReps {le : α → α → Prop} (antisymm : ∀ a b, le a b → le b a → a = b)
    {xs : List α} (sorted : xs.Pairwise le) : xs.eraseReps.Nodup := by
  cases xs with
  | nil => exact List.nodup_nil
  | cons x xs =>
    induction xs generalizing x with
    | nil => exact List.nodup_singleton x
    | cons y xs ih =>
      obtain ⟨below, tail⟩ := List.pairwise_cons.mp sorted
      rw [eraseReps_cons_cons]
      split
      · next same =>
        obtain rfl := eq_of_beq same
        exact ih x tail
      · next different =>
        refine List.nodup_cons.mpr ⟨fun member => different ?_, ih y tail⟩
        have later : x = y ∨ x ∈ xs := List.mem_cons.mp (mem_eraseReps.mp member)
        have same : x = y := later.elim id fun h =>
          antisymm x y (below y List.mem_cons_self) (List.rel_of_pairwise_cons tail h)
        exact beq_iff_eq.mpr same

theorem eraseReps_sublist (xs : List α) : xs.eraseReps.Sublist xs := by
  cases xs with
  | nil => exact List.Sublist.refl _
  | cons x xs =>
    induction xs generalizing x with
    | nil => exact List.Sublist.refl _
    | cons y xs ih =>
      rw [eraseReps_cons_cons]
      split
      · next same =>
        obtain rfl := eq_of_beq same
        exact (ih x).trans (List.sublist_cons_self x (x :: xs))
      · exact (ih y).cons_cons x

end

/-! ### The facts -/

namespace Question

def factSet (q : Question) : Finset FactKey := (q.figures.map Figure.key).toFinset

theorem mem_facts {q : Question} {k : FactKey} : k ∈ q.facts ↔ k ∈ q.factSet := by
  rw [facts, mem_eraseReps, List.mem_mergeSort, factSet, List.mem_toFinset]

theorem sortedKeys_pairwise (q : Question) :
    ((q.figures.map Figure.key).mergeSort FactKey.le).Pairwise fun a b => a.le b = true :=
  @List.pairwise_mergeSort _ FactKey.le (fun _ _ _ => FactKey.le_trans) FactKey.le_total _

theorem facts_pairwise (q : Question) : q.facts.Pairwise fun a b => a.le b = true :=
  q.sortedKeys_pairwise.sublist (eraseReps_sublist _)

theorem facts_nodup (q : Question) : q.facts.Nodup :=
  nodup_eraseReps (fun _ _ => FactKey.le_antisymm) q.sortedKeys_pairwise

theorem facts_eq_iff {p q : Question} : p.facts = q.facts ↔ p.factSet = q.factSet := by
  constructor
  · intro same
    ext k
    rw [← mem_facts, ← mem_facts, same]
  · intro same
    refine List.Perm.eq_of_pairwise (fun _ _ _ _ => FactKey.le_antisymm) p.facts_pairwise
      q.facts_pairwise ((List.perm_ext_iff_of_nodup p.facts_nodup q.facts_nodup).mpr fun k => ?_)
    rw [mem_facts, mem_facts, same]

theorem factSet_eq_of_perm {p q : Question} (perm : p.figures.Perm q.figures) :
    p.factSet = q.factSet :=
  List.toFinset_eq_of_perm _ _ (perm.map _)

end Question

end FermiQuiz
