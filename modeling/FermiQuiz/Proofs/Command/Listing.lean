import Mathlib
import FermiQuiz.Command.Run
import FermiQuiz.Proofs.Ranking

/-!
# Listed questions

`compareDifficulty` orders all questions, and a tie in it is the same score, bit for bit, with the
same prompt. A list of questions has one arrangement in this order that leaves its ties as they
were: `rankByDifficulty` gives it, and it is what a listing by difficulty shows.
-/

namespace FermiQuiz

theorem Number.orderKey_inj {x y : Float} :
    Number.orderKey x = Number.orderKey y ↔ x.toBits = y.toBits := by
  have hx := x.toBits.toNat_lt
  have hy := y.toBits.toNat_lt
  rw [← UInt64.toNat_inj]
  simp only [Number.orderKey, Nat.pow_eq]
  omega

variable [Number.Elementary]

/-- The score is the same, bit for bit, and so is the prompt. -/
def Question.IsTied (p q : Question) : Prop :=
  (difficulty p).toBits = (difficulty q).toBits ∧ p.prompt = q.prompt

instance (p q : Question) : Decidable (p.IsTied q) := inferInstanceAs (Decidable (_ ∧ _))

/-- The questions arranged from easy to hard, with ties as they were. -/
structure IsRanking (qs rs : List Question) : Prop where
  perm : rs.Perm qs
  ordered : rs.Pairwise fun p q => (compareDifficulty p q).isLE = true
  stable (q : Question) : rs.filter (q.IsTied ·) = qs.filter (q.IsTied ·)

/-! ### The order -/

instance : Std.TransCmp compareDifficulty where
  eq_swap {p q} :=
    @Std.OrientedCmp.eq_swap _ compareScored _ (difficulty p, p) (difficulty q, q)
  isLE_trans {p q r} :=
    @Std.TransCmp.isLE_trans _ compareScored _ (difficulty p, p) (difficulty q, q) (difficulty r, r)

theorem compareDifficulty_eq_iff {p q : Question} : compareDifficulty p q = .eq ↔ p.IsTied q := by
  rw [compareDifficulty, compareScored, Ordering.then_eq_eq, Int.compare_eq_eq,
    Std.compare_eq_iff_eq, Number.orderKey_inj, Question.IsTied]

theorem isTied_eq (q : Question) :
    (fun p => decide (q.IsTied p)) = (compareDifficulty q · == .eq) := by
  funext p
  rw [Bool.eq_iff_iff, decide_eq_true_eq, beq_iff_eq, compareDifficulty_eq_iff]

/-! ### The ranking -/

/-- Scoring the questions before they are sorted changes nothing. -/
theorem rankByDifficulty_eq_sortedBy (qs : List Question) :
    rankByDifficulty qs = sortedBy compareDifficulty qs := by
  have sorted := List.map_mergeSort (f := fun q : Question => (difficulty q, q))
    (r := fun p q => (compareDifficulty p q).isLE) (s := fun a b => (compareScored a b).isLE)
    (l := qs) fun _ _ _ _ => rfl
  calc rankByDifficulty qs
      = ((sortedBy compareDifficulty qs).map fun q => (difficulty q, q)).map (·.2) := by
        rw [rankByDifficulty, ← sorted]
    _ = sortedBy compareDifficulty qs := by
        simp only [List.map_map, Function.comp_def, List.map_id']

theorem isRanking_rankByDifficulty (qs : List Question) : IsRanking qs (rankByDifficulty qs) where
  perm := rankByDifficulty_perm qs
  ordered := rankByDifficulty_pairwise qs
  stable q := by rw [isTied_eq, rankByDifficulty_eq_sortedBy, filter_sortedBy]

theorem IsRanking.unique {qs rs ss : List Question} (hr : IsRanking qs rs)
    (hs : IsRanking qs ss) : rs = ss := by
  refine eq_of_tied_eq hr.ordered hs.ordered fun q => ?_
  rw [← isTied_eq, hr.stable q, hs.stable q]

/-- `compareDifficulty` is a total preorder whose ties are equal scores with equal prompts. The
ranking by it is the one ordered permutation that keeps ties as they were, and a listing by
difficulty is in its order. -/
theorem ranking_by_compareDifficulty :
    Std.TransCmp compareDifficulty ∧
      (∀ p q, compareDifficulty p q = .eq ↔ p.IsTied q) ∧
      ∀ qs, (∀ rs, IsRanking qs rs ↔ rs = rankByDifficulty qs) ∧
        Command.sorted? "difficulty" qs = some (rankByDifficulty qs) := by
  refine ⟨inferInstance, fun _ _ => compareDifficulty_eq_iff,
    fun qs => ⟨fun rs => ⟨fun ranking => ?_, ?_⟩, ?_⟩⟩
  · exact ranking.unique (isRanking_rankByDifficulty qs)
  · rintro rfl
    exact isRanking_rankByDifficulty qs
  · rw [Command.sorted?, if_pos rfl, rankByDifficulty_eq_sortedBy]

end FermiQuiz
