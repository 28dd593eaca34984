import Mathlib
import FermiQuiz.Difficulty
import FermiQuiz.Proofs.StableSort

/-!
# Ranked questions

`rankByDifficulty` permutes its questions into the order of `compareDifficulty`. Where prompts
differ that order has no ties, so the ranking depends on the questions alone and not on how they
were listed.
-/

namespace FermiQuiz

/-! ### The order -/

instance : Std.TransCmp compareScored :=
  inferInstanceAs (Std.TransCmp (compareLex (compareOn fun a : Float × Question => Number.orderKey a.1)
    (compareOn fun a : Float × Question => a.2.prompt)))

theorem prompt_eq_of_isLE {a b : Float × Question} (hab : (compareScored a b).isLE = true)
    (hba : (compareScored b a).isLE = true) : a.2.prompt = b.2.prompt := by
  have same : compareScored a b = .eq := Std.OrientedCmp.isLE_antisymm hab hba
  rw [compareScored, Ordering.then_eq_eq] at same
  exact Std.LawfulEqCmp.eq_of_compare same.2

/-! ### The ranking -/

section

variable [Number.Elementary]

def scored (qs : List Question) : List (Float × Question) := qs.map fun q => (difficulty q, q)

def rankedScores (qs : List Question) : List (Float × Question) :=
  (scored qs).mergeSort fun a b => (compareScored a b).isLE

theorem rankByDifficulty_eq (qs : List Question) :
    rankByDifficulty qs = (rankedScores qs).map (·.2) := rfl

theorem rankedScores_perm (qs : List Question) : (rankedScores qs).Perm (scored qs) :=
  List.mergeSort_perm _ _

theorem rankedScores_pairwise (qs : List Question) :
    (rankedScores qs).Pairwise fun a b => (compareScored a b).isLE = true :=
  sortedBy_pairwise (scored qs)

theorem rankByDifficulty_perm (qs : List Question) : (rankByDifficulty qs).Perm qs := by
  have := (rankedScores_perm qs).map (·.2)
  simpa [rankByDifficulty_eq, scored, Function.comp_def] using this

theorem score_of_mem {qs : List Question} {a : Float × Question} (h : a ∈ rankedScores qs) :
    a = (difficulty a.2, a.2) := by
  have member := (rankedScores_perm qs).mem_iff.mp h
  obtain ⟨q, -, rfl⟩ := List.mem_map.mp member
  rfl

theorem rankByDifficulty_pairwise (qs : List Question) :
    (rankByDifficulty qs).Pairwise fun p q => (compareDifficulty p q).isLE = true := by
  rw [rankByDifficulty_eq, List.pairwise_map]
  refine (rankedScores_pairwise qs).imp_of_mem fun {a b} ha hb h => ?_
  rw [score_of_mem ha, score_of_mem hb] at h
  exact h

/-- Questions with different prompts are ranked the same however they are listed. -/
theorem rankByDifficulty_eq_of_perm {ps qs : List Question} (perm : ps.Perm qs)
    (distinct : (ps.map Question.prompt).Nodup) : rankByDifficulty ps = rankByDifficulty qs := by
  refine congrArg (List.map (·.2)) (List.Perm.eq_of_pairwise ?_ (rankedScores_pairwise ps)
    (rankedScores_pairwise qs) ?_)
  · intro a b ha hb hab hba
    have memberA : a.2 ∈ ps := by
      obtain ⟨p, hp, rfl⟩ := List.mem_map.mp ((rankedScores_perm ps).mem_iff.mp ha)
      exact hp
    have memberB : b.2 ∈ ps := by
      obtain ⟨q, hq, rfl⟩ := List.mem_map.mp ((rankedScores_perm qs).mem_iff.mp hb)
      exact perm.mem_iff.mpr hq
    have same : a.2 = b.2 :=
      List.inj_on_of_nodup_map distinct memberA memberB (prompt_eq_of_isLE hab hba)
    rw [score_of_mem ha, score_of_mem hb, same]
  · exact (rankedScores_perm ps).trans ((perm.map _).trans (rankedScores_perm qs).symm)

end

/-! ### What stands in front -/

/-- In a list ordered by `le`, whatever may not come after an entry at place `i` comes before it,
so at most `i` entries are such. -/
theorem countP_le_of_pairwise {α : Type} {le : α → α → Prop} {p : α → Bool} {xs : List α}
    (sorted : xs.Pairwise le) (i : Nat) (h : i < xs.length)
    (before : ∀ y, le xs[i] y → p y = false) (self : p xs[i] = false) : xs.countP p ≤ i := by
  rw [← List.take_append_drop i xs, List.countP_append]
  have rest : (xs.drop i).countP p = 0 := by
    rw [List.countP_eq_zero]
    intro y hy
    rw [List.drop_eq_getElem_cons h] at hy
    rcases List.mem_cons.mp hy with rfl | later
    · simp [self]
    · have tail : (xs[i] :: xs.drop (i + 1)).Pairwise le := by
        rw [← List.drop_eq_getElem_cons h]
        exact sorted.sublist (List.drop_sublist i xs)
      simp [before y (List.rel_of_pairwise_cons tail later)]
  have front := List.countP_le_length (p := p) (l := xs.take i)
  rw [List.length_take] at front
  omega

variable [Number.Elementary]

/-- Of the questions ranked, fewer than `n` are easier than one of the first `n`. -/
theorem countP_easier_lt {qs : List Question} {n : Nat} {q : Question}
    (h : q ∈ (rankByDifficulty qs).take n) :
    qs.countP (fun p => compareDifficulty p q == .lt) < n := by
  obtain ⟨i, hi, rfl⟩ := List.mem_iff_getElem.mp h
  rw [List.length_take] at hi
  rw [List.getElem_take]
  have bound := countP_le_of_pairwise (p := fun p => compareDifficulty p (rankByDifficulty qs)[i] == .lt)
    (rankByDifficulty_pairwise qs) i (by omega)
    (by
      intro y hy
      have swapped := @Std.OrientedCmp.eq_swap _ compareScored _ (difficulty y, y)
        (difficulty (rankByDifficulty qs)[i], (rankByDifficulty qs)[i])
      unfold compareDifficulty at hy ⊢
      rw [swapped]
      revert hy
      cases compareScored _ (difficulty y, y) <;> simp)
    (by simp [compareDifficulty, Std.ReflCmp.compare_self])
  rw [(rankByDifficulty_perm qs).countP_eq] at bound
  omega

end FermiQuiz
