import Mathlib

/-!
# Stable sorting

A list that is sorted by a comparison is in the order of the comparison, and entries that it does
not tell apart stay in the order in which they were listed. No other list is so.
-/

namespace FermiQuiz

section

variable {α : Type} {cmp : α → α → Ordering} [Std.TransCmp cmp]

/-- The entries of a list in the order of a comparison. -/
abbrev sortedBy (cmp : α → α → Ordering) (xs : List α) : List α :=
  xs.mergeSort fun a b => (cmp a b).isLE

theorem isLE_total (a b : α) : ((cmp a b).isLE || (cmp b a).isLE) = true := by
  rw [@Std.OrientedCmp.eq_swap _ cmp _ b a]
  cases cmp a b <;> rfl

theorem sortedBy_pairwise (xs : List α) :
    (sortedBy cmp xs).Pairwise fun a b => (cmp a b).isLE = true :=
  @List.pairwise_mergeSort _ (fun a b => (cmp a b).isLE)
    (fun _ _ _ => Std.TransCmp.isLE_trans) isLE_total _

theorem sortedBy_sortedBy (xs : List α) : sortedBy cmp (sortedBy cmp xs) = sortedBy cmp xs :=
  List.mergeSort_of_pairwise (sortedBy_pairwise xs)

theorem filter_sortedBy (xs : List α) (a : α) :
    (sortedBy cmp xs).filter (cmp a · == .eq) = xs.filter (cmp a · == .eq) := by
  have tied {b : α} (member : b ∈ xs.filter (cmp a · == .eq)) : cmp a b = .eq :=
    eq_of_beq (List.mem_filter.mp member).2
  -- The tied entries are in order as they are listed, so sorting leaves them as they are.
  have ordered : (xs.filter (cmp a · == .eq)).Pairwise fun b c => (cmp b c).isLE = true := by
    refine List.pairwise_of_forall_mem_list fun b hb c hc => ?_
    rw [Std.TransCmp.congr_left (Std.OrientedCmp.eq_symm (tied hb)), tied hc]
    rfl
  have kept : (xs.filter (cmp a · == .eq)).Sublist (sortedBy cmp xs) :=
    List.sublist_mergeSort (fun _ _ _ => Std.TransCmp.isLE_trans) isLE_total ordered
      List.filter_sublist
  have filtered := kept.filter (cmp a · == .eq)
  simp only [List.filter_filter, Bool.and_self] at filtered
  exact (filtered.eq_of_length ((List.mergeSort_perm _ _).filter _).length_eq.symm).symm

theorem mem_tied {xs : List α} {a : α} (member : a ∈ xs) : a ∈ xs.filter (cmp a · == .eq) :=
  List.mem_filter.mpr ⟨member, beq_iff_eq.mpr Std.ReflCmp.compare_self⟩

theorem mem_iff_of_tied_eq {xs ys : List α} {a : α}
    (same : xs.filter (cmp a · == .eq) = ys.filter (cmp a · == .eq)) : a ∈ xs ↔ a ∈ ys :=
  ⟨fun member => List.mem_of_mem_filter (same ▸ mem_tied member),
    fun member => List.mem_of_mem_filter (same ▸ mem_tied member)⟩

/-- Ordered lists are equal if the entries that the comparison does not tell apart stand in the same
order in both. -/
theorem eq_of_tied_eq {xs ys : List α} (hx : xs.Pairwise fun a b => (cmp a b).isLE = true)
    (hy : ys.Pairwise fun a b => (cmp a b).isLE = true)
    (same : ∀ a, xs.filter (cmp a · == .eq) = ys.filter (cmp a · == .eq)) : xs = ys := by
  induction xs generalizing ys with
  | nil =>
    exact (List.eq_nil_iff_forall_not_mem.mpr fun a =>
      (mem_iff_of_tied_eq (same a)).not.mp List.not_mem_nil).symm
  | cons x xs ih =>
    cases ys with
    | nil => exact absurd ((mem_iff_of_tied_eq (same x)).mp List.mem_cons_self) List.not_mem_nil
    | cons y ys =>
      -- Each head is in the other list, so neither comes before the other.
      have le : (cmp x y).isLE = true := by
        have member := (mem_iff_of_tied_eq (same y)).mpr List.mem_cons_self
        rcases List.mem_cons.mp member with rfl | member
        · exact Std.ReflCmp.isLE_rfl
        · exact List.rel_of_pairwise_cons hx member
      have ge : (cmp y x).isLE = true := by
        have member := (mem_iff_of_tied_eq (same x)).mp List.mem_cons_self
        rcases List.mem_cons.mp member with rfl | member
        · exact Std.ReflCmp.isLE_rfl
        · exact List.rel_of_pairwise_cons hy member
      have tied : cmp x y = .eq := Std.OrientedCmp.isLE_antisymm le ge
      have heads := same x
      simp only [List.filter_cons, @Std.ReflCmp.compare_self _ cmp, tied, beq_self_eq_true,
        if_true] at heads
      obtain rfl : x = y := (List.cons.inj heads).1
      have tails (a : α) : xs.filter (cmp a · == .eq) = ys.filter (cmp a · == .eq) := by
        have both := same a
        simp only [List.filter_cons] at both
        split at both
        · exact (List.cons.inj both).2
        · exact both
      rw [ih hx.of_cons hy.of_cons tails]

end

end FermiQuiz
