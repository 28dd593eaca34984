import Mathlib
import FermiQuiz.Proofs.Number.Decimal

/-!
# Shortest decimals

A decimal reads back as a double exactly if it is rounded to that double. The shortest such decimal
exists, for a decimal of seventeen digits always reads back, and the next power of ten above it
does not read back.
-/

namespace FermiQuiz.Number

/-! ### The numbers that are rounded to a double -/

/-- Where the numbers that are rounded to `s * 2 ^ e` begin. -/
def lowEnd (s : ℕ) (e : ℤ) : ℚ := (s - gapBelow s e / 4) * 2 ^ e

/-- Where the numbers that are rounded to `s * 2 ^ e` end. -/
def highEnd (s : ℕ) (e : ℤ) : ℚ := (s + 1 / 2) * 2 ^ e

/-- `q` lies between the ends for `s * 2 ^ e`, which belong to an even significand. -/
def Within (s : ℕ) (e : ℤ) (q : ℚ) : Prop :=
  if s % 2 = 0 then lowEnd s e ≤ q ∧ q ≤ highEnd s e else lowEnd s e < q ∧ q < highEnd s e

theorem Within.bounds {s : ℕ} {e : ℤ} {q : ℚ} (h : Within s e q) :
    lowEnd s e ≤ q ∧ q ≤ highEnd s e := by
  unfold Within at h
  split at h
  · exact h
  · exact ⟨h.1.le, h.2.le⟩

theorem within_of_lt {s : ℕ} {e : ℤ} {q : ℚ} (low : lowEnd s e < q) (high : q < highEnd s e) :
    Within s e q := by
  unfold Within
  split
  · exact ⟨low.le, high.le⟩
  · exact ⟨low, high⟩

theorem gapBelow_eq_or (s : ℕ) (e : ℤ) :
    (gapBelow s e = 1 ∧ s = 2 ^ 52 ∧ -1074 < e) ∨
      (gapBelow s e = 2 ∧ ¬ (s = 2 ^ 52 ∧ -1074 < e)) := by
  unfold gapBelow
  simp only [Nat.pow_eq]
  split
  · next h => exact Or.inl ⟨rfl, h⟩
  · next h => exact Or.inr ⟨rfl, h⟩

theorem gapBelow_of_full {e : ℤ} (h : -1074 < e) : gapBelow (2 ^ 52) e = 1 := by
  simp [gapBelow, h]

theorem sub_half_le_lowEnd (s : ℕ) (e : ℤ) : (s - 1 / 2) * 2 ^ e ≤ lowEnd s e := by
  have gap : (gapBelow s e : ℚ) / 4 ≤ 1 / 2 := by
    rcases gapBelow_eq_or s e with ⟨gap, -⟩ | ⟨gap, -⟩ <;> rw [gap] <;> norm_num
  unfold lowEnd
  gcongr

theorem within_of_ge {s : ℕ} {e : ℤ} {q : ℚ} (low : s * 2 ^ e ≤ q) (high : q < highEnd s e) :
    Within s e q := by
  refine within_of_lt (lt_of_lt_of_le ?_ low) high
  have gap : (0 : ℚ) < gapBelow s e := by
    rcases gapBelow_eq_or s e with ⟨gap, -⟩ | ⟨gap, -⟩ <;> rw [gap] <;> norm_num
  unfold lowEnd
  gcongr
  linarith

/-- Below a power of two the doubles lie on the grid of half the width. -/
theorem roundsTo_below_power {e : ℤ} {q : ℚ} (more : -1074 < e)
    (low : lowEnd (2 ^ 52) e ≤ q) (under : q < 2 ^ 52 * 2 ^ e) : RoundsTo q (2 ^ 53) (e - 1) := by
  have half : (2 : ℚ) ^ e = 2 * 2 ^ (e - 1) := by
    rw [zpow_sub₀ two_ne_zero, zpow_one, mul_div_cancel₀ _ two_ne_zero]
  have grid : (0 : ℚ) < 2 ^ (e - 1) := by positivity
  have near : (2 ^ 53 - 1 / 2) * 2 ^ (e - 1) ≤ q := by
    refine le_trans (le_of_eq ?_) low
    rw [lowEnd, gapBelow_of_full more, half]
    push_cast
    ring
  have under' : q < 2 ^ 53 * 2 ^ (e - 1) := by
    refine under.trans_eq ?_
    rw [half]
    ring
  refine ⟨by omega, ?_, Or.inl ?_, ?_, ?_, fun _ => by norm_num⟩
  · rwa [zpow_add₀ two_ne_zero, mul_comm]
  · rw [zpow_add₀ two_ne_zero, mul_comm]
    refine le_trans ?_ near
    gcongr
    norm_num
  · rw [div_le_iff₀ grid]
    push_cast
    linarith
  · rw [le_div_iff₀ grid]
    exact_mod_cast near

theorem isRoundEven_of_within {s : ℕ} {e : ℤ} {q : ℚ} (h : Within s e q) :
    IsRoundEven s (q / 2 ^ e) := by
  have grid : (0 : ℚ) < 2 ^ e := by positivity
  obtain ⟨low, high⟩ := h.bounds
  refine ⟨?_, ?_, fun tie => ?_⟩
  · rw [div_le_iff₀ grid]
    exact high
  · rw [le_div_iff₀ grid]
    exact (sub_half_le_lowEnd s e).trans low
  · unfold Within at h
    split at h
    · next even => exact even
    · next odd =>
      obtain ⟨low', high'⟩ := h
      have below := (sub_half_le_lowEnd s e).trans_lt low'
      rcases tie with tie | tie <;> rw [div_eq_iff grid.ne'] at tie
      · exact absurd tie high'.ne
      · exact absurd tie below.ne'

theorem roundsTo_on_grid {s : ℕ} {e : ℤ} {q : ℚ} (canonical : Canonical s e)
    (h : Within s e q) (stays : s = 2 ^ 52 → -1074 < e → s * 2 ^ e ≤ q) : RoundsTo q s e := by
  obtain ⟨bound, lower, normal⟩ := canonical
  obtain ⟨low, high⟩ := h.bounds
  have below := (sub_half_le_lowEnd s e).trans low
  have bound' : (s : ℚ) + 1 ≤ 2 ^ 53 := by exact_mod_cast bound
  refine ⟨lower, ?_, ?_, isRoundEven_of_within h⟩
  · unfold highEnd at high
    rw [zpow_add₀ two_ne_zero, mul_comm]
    refine high.trans_lt ?_
    gcongr
    linarith
  · by_cases least : e = -1074
    · exact Or.inr least
    left
    have large := normal.resolve_right least
    rw [zpow_add₀ two_ne_zero, mul_comm]
    rcases large.lt_or_eq with larger | full
    · have larger' : (2 : ℚ) ^ 52 + 1 ≤ s := by exact_mod_cast larger
      refine le_trans ?_ below
      gcongr
      linarith
    · refine le_trans ?_ (stays full.symm (by omega))
      gcongr
      exact_mod_cast large

/-- The numbers between the ends are those that are rounded to the double. -/
theorem roundsTo_of_within {s : ℕ} {e : ℤ} {q : ℚ} (canonical : Canonical s e)
    (h : Within s e q) : ∃ s' e', RoundsTo q s' e' ∧ bitsOf s' e' = bitsOf s e := by
  by_cases carried : (s = 2 ^ 52 ∧ -1074 < e) ∧ q < s * 2 ^ e
  · obtain ⟨⟨rfl, more⟩, under⟩ := carried
    refine ⟨_, _, roundsTo_below_power more h.bounds.1 (by exact_mod_cast under), ?_⟩
    unfold bitsOf
    omega
  · refine ⟨s, e, roundsTo_on_grid canonical h fun full more => ?_, rfl⟩
    by_contra! under
    exact carried ⟨⟨full, more⟩, under⟩

theorem within_of_roundsTo_self {s : ℕ} {e : ℤ} {q : ℚ} (h : RoundsTo q s e) : Within s e q := by
  have grid : (0 : ℚ) < 2 ^ e := by positivity
  have above := h.near.le_add
  have below := h.near.sub_le
  rw [div_le_iff₀ grid] at above
  rw [le_div_iff₀ grid] at below
  rcases gapBelow_eq_or s e with ⟨gap, full, more⟩ | ⟨gap, -⟩
  · have normal := h.normal.resolve_right (by omega)
    rw [zpow_add₀ two_ne_zero, mul_comm] at normal
    unfold Within
    rw [if_pos (by omega), lowEnd, gap, full]
    refine ⟨le_trans ?_ normal, full ▸ above⟩
    gcongr
    push_cast
    norm_num
  · have low : lowEnd s e = (s - 1 / 2) * 2 ^ e := by
      rw [lowEnd, gap]
      norm_num
    unfold Within
    split
    · exact ⟨low.trans_le below, above⟩
    · next odd =>
      refine ⟨low.trans_lt (below.lt_of_ne fun tie => odd (h.near.even (Or.inr ?_))),
        above.lt_of_ne fun tie => odd (h.near.even (Or.inl ?_))⟩
      · rw [← tie, mul_div_cancel_right₀ _ grid.ne']
      · rw [tie, mul_div_cancel_right₀ _ grid.ne']

theorem within_of_roundsTo_full {e : ℤ} {q : ℚ} (h : RoundsTo q (2 ^ 53) e) :
    Within (2 ^ 52) (e + 1) q := by
  have grid : (0 : ℚ) < 2 ^ e := by positivity
  have lower := h.lower
  have below := h.near.sub_le
  have above := h.upper
  rw [le_div_iff₀ grid] at below
  rw [zpow_add₀ two_ne_zero, mul_comm] at above
  unfold Within
  rw [if_pos (by norm_num), lowEnd, highEnd, gapBelow_of_full (by omega), zpow_add₀ two_ne_zero,
    zpow_one]
  push_cast at below ⊢
  norm_num at above below ⊢
  constructor <;> linarith

theorem within_of_roundsTo {s s' : ℕ} {e e' : ℤ} {q : ℚ} (canonical : Canonical s e)
    (h : RoundsTo q s' e') (same : bitsOf s' e' = bitsOf s e) : Within s e q := by
  rcases h.le_bound.lt_or_eq with bound | rfl
  · obtain ⟨rfl, rfl⟩ := eq_of_bitsOf_eq ⟨bound, h.lower, h.normal_or⟩ canonical same
    exact within_of_roundsTo_self h
  · have lower := h.lower
    have next : Canonical (2 ^ 52) (e' + 1) := ⟨by norm_num, by omega, Or.inl le_rfl⟩
    have same' : bitsOf (2 ^ 52) (e' + 1) = bitsOf s e := by
      rw [← same]
      unfold bitsOf
      omega
    obtain ⟨rfl, rfl⟩ := eq_of_bitsOf_eq next canonical same'
    exact within_of_roundsTo_full h

/-! ### Reading back -/

section

variable {s a : ℕ} {e : ℤ} {d : Decimal}

theorem low_le_iff : numerator a e * d.denominator ≤ 4 * d.numerator * denominator e ↔
    (a * 2 ^ e / 4 : ℚ) ≤ d.value := by
  have den : (0 : ℚ) < denominator e := by exact_mod_cast denominator_pos e
  have den' : (0 : ℚ) < d.denominator := by exact_mod_cast d.denominator_pos
  rw [← numerator_div_denominator, Decimal.value_eq_div, div_div, div_le_div_iff₀ (by positivity)
    den', ← Nat.cast_le (α := ℚ)]
  push_cast
  constructor <;> intro h <;> linarith

theorem le_high_iff : 4 * d.numerator * denominator e ≤ numerator a e * d.denominator ↔
    d.value ≤ (a * 2 ^ e / 4 : ℚ) := by
  have den : (0 : ℚ) < denominator e := by exact_mod_cast denominator_pos e
  have den' : (0 : ℚ) < d.denominator := by exact_mod_cast d.denominator_pos
  rw [← numerator_div_denominator, Decimal.value_eq_div, div_div, div_le_div_iff₀ den'
    (by positivity), ← Nat.cast_le (α := ℚ)]
  push_cast
  constructor <;> intro h <;> linarith

theorem readsBack_iff (positive : 0 < s) : readsBack s e d = true ↔ Within s e d.value := by
  have gap : gapBelow s e ≤ 4 * s := by
    rcases gapBelow_eq_or s e with ⟨gap, -⟩ | ⟨gap, -⟩ <;> omega
  have low : lowEnd s e = ((4 * s - gapBelow s e : ℕ) : ℚ) * 2 ^ e / 4 := by
    rw [Nat.cast_sub gap, lowEnd]
    push_cast
    ring
  have high : highEnd s e = ((4 * s + 2 : ℕ) : ℚ) * 2 ^ e / 4 := by
    rw [highEnd]
    push_cast
    ring
  unfold readsBack Within
  rw [low, high]
  simp only
  split
  · rw [Bool.and_eq_true, decide_eq_true_eq, decide_eq_true_eq, low_le_iff, le_high_iff]
  · rw [Bool.and_eq_true, decide_eq_true_eq, decide_eq_true_eq, ← not_le, ← not_le, ← not_le,
      ← not_le, low_le_iff, le_high_iff]

end

/-! ### Candidates -/

/-- The place on the grid `10 ^ scale` at or below `s * 2 ^ e`. -/
def gridPlace (s : ℕ) (e scale : ℤ) : ℕ :=
  numerator s e * 10 ^ (-scale).toNat / (denominator e * 10 ^ scale.toNat)

theorem gridPlace_spec (s : ℕ) (e scale : ℤ) :
    (gridPlace s e scale * 10 ^ scale : ℚ) ≤ s * 2 ^ e ∧
      (s * 2 ^ e : ℚ) < (gridPlace s e scale + 1) * 10 ^ scale := by
  have den_pos : 0 < denominator e * 10 ^ scale.toNat :=
    Nat.mul_pos (denominator_pos e) (Nat.pow_pos (by norm_num))
  have grid : (0 : ℚ) < 10 ^ scale := by positivity
  have den : (denominator e : ℚ) ≠ 0 := by exact_mod_cast (denominator_pos e).ne'
  have quotient : ((numerator s e * 10 ^ (-scale).toNat : ℕ) : ℚ) /
      (denominator e * 10 ^ scale.toNat : ℕ) = s * 2 ^ e / 10 ^ scale := by
    rw [← numerator_div_denominator]
    push_cast
    rw [pow_toNat (by norm_num) scale]
    field_simp
  have split := div_eq_div_add_mod (numerator s e * 10 ^ (-scale).toNat) den_pos
  have rest := Nat.mod_lt (numerator s e * 10 ^ (-scale).toNat) den_pos
  rw [quotient] at split
  rw [← div_lt_iff₀ grid, ← le_div_iff₀ grid, split, gridPlace]
  generalize numerator s e * 10 ^ (-scale).toNat % (denominator e * 10 ^ scale.toNat) = r at rest ⊢
  have den_pos' : (0 : ℚ) < (denominator e * 10 ^ scale.toNat : ℕ) := by exact_mod_cast den_pos
  have rest' : (r : ℚ) < (denominator e * 10 ^ scale.toNat : ℕ) := by exact_mod_cast rest
  refine ⟨le_add_of_nonneg_right (by positivity), ?_⟩
  gcongr
  exact (div_lt_one den_pos').mpr rest'

section

variable {tie : Tie} {s : ℕ} {e scale : ℤ} {d : Decimal}

theorem candidate_eq_some (h : candidate tie s e scale = some d) :
    readsBack s e d = true ∧
      (d = ⟨gridPlace s e scale, scale⟩ ∨ d = ⟨gridPlace s e scale + 1, scale⟩) := by
  unfold candidate at h
  simp only [Nat.pow_eq] at h
  rw [show numerator s e * 10 ^ (-scale).toNat / (denominator e * 10 ^ scale.toNat) =
    gridPlace s e scale from rfl] at h
  cases lower : readsBack s e ⟨gridPlace s e scale, scale⟩ <;>
    cases upper : readsBack s e ⟨gridPlace s e scale + 1, scale⟩ <;>
    simp only [lower, upper] at h
  · cases h
  · cases h
    exact ⟨upper, Or.inr rfl⟩
  · cases h
    exact ⟨lower, Or.inl rfl⟩
  · have among : some d = some ⟨gridPlace s e scale, scale⟩ ∨
        some d = some ⟨gridPlace s e scale + 1, scale⟩ := by
      rw [← h]
      split_ifs <;> cases tie <;> simp
    rcases among with among | among <;> cases among
    · exact ⟨lower, Or.inl rfl⟩
    · exact ⟨upper, Or.inr rfl⟩

theorem candidate_isSome (tie : Tie) (h : readsBack s e ⟨gridPlace s e scale, scale⟩ = true ∨
    readsBack s e ⟨gridPlace s e scale + 1, scale⟩ = true) :
    (candidate tie s e scale).isSome = true := by
  unfold candidate
  simp only [Nat.pow_eq]
  rw [show numerator s e * 10 ^ (-scale).toNat / (denominator e * 10 ^ scale.toNat) =
    gridPlace s e scale from rfl]
  cases lower : readsBack s e ⟨gridPlace s e scale, scale⟩ <;>
    cases upper : readsBack s e ⟨gridPlace s e scale + 1, scale⟩ <;>
    simp only [lower, upper] at h ⊢
  · simp at h
  · rfl
  · rfl
  · split_ifs <;> cases tie <;> rfl

end

/-! ### The shortest decimal -/

def firstExponent (s : ℕ) (e : ℤ) : ℤ := leadingExponent (numerator s e) (denominator e)

theorem firstExponent_spec {s : ℕ} (e : ℤ) (positive : 0 < s) :
    10 ^ firstExponent s e ≤ (s * 2 ^ e : ℚ) ∧ (s * 2 ^ e : ℚ) < 10 ^ (firstExponent s e + 1) := by
  rw [← numerator_div_denominator]
  exact leadingExponent_spec (Nat.mul_pos positive (Nat.pow_pos (by norm_num))) (denominator_pos e)

/-- On the grid of seventeen digits a neighbour of the value reads back. -/
theorem exists_readsBack_of_seventeen {s : ℕ} {e : ℤ} (bound : s < 2 ^ 53) (positive : 0 < s) :
    readsBack s e ⟨gridPlace s e (firstExponent s e - 16), firstExponent s e - 16⟩ = true ∨
      readsBack s e ⟨gridPlace s e (firstExponent s e - 16) + 1, firstExponent s e - 16⟩ = true := by
  have grid : (0 : ℚ) < 2 ^ e := by positivity
  obtain ⟨above, -⟩ := firstExponent_spec e positive
  obtain ⟨lower, upper⟩ := gridPlace_spec s e (firstExponent s e - 16)
  rw [readsBack_iff positive, readsBack_iff positive]
  unfold Decimal.value
  have scaled : (10 : ℚ) ^ firstExponent s e = 10 ^ (firstExponent s e - 16) * 10 ^ 16 := by
    rw [zpow_sub₀ (by norm_num)]
    norm_cast
    field_simp
  rw [scaled] at above
  generalize (10 : ℚ) ^ (firstExponent s e - 16) = w at above lower upper ⊢
  generalize gridPlace s e (firstExponent s e - 16) = t at lower upper ⊢
  push_cast
  rcases gapBelow_eq_or s e with ⟨-, full, -⟩ | ⟨gap, -⟩
  · -- Below a power of two the interval is narrow, but a step of the grid is less than its half.
    right
    have narrow : w < 2 ^ e / 2 := by
      rw [full] at above
      push_cast at above
      linarith
    refine within_of_ge upper.le ?_
    rw [highEnd]
    linarith
  · have narrow : w < 2 ^ e := by
      have bound' : (s : ℚ) < 2 ^ 53 := by exact_mod_cast bound
      have : (s * 2 ^ e : ℚ) < 2 ^ 53 * 2 ^ e := by gcongr
      linarith
    rcases le_total (s * 2 ^ e - t * w : ℚ) (w / 2) with near | far
    · left
      refine within_of_lt ?_ ?_
      · rw [lowEnd, gap]
        push_cast
        linarith
      · rw [highEnd]
        linarith
    · right
      refine within_of_ge upper.le ?_
      rw [highEnd]
      linarith

theorem exists_candidate_eq_shortest (tie : Tie) {s : ℕ} {e : ℤ} (bound : s < 2 ^ 53)
    (positive : 0 < s) :
    ∃ n : ℕ, n < 17 ∧ candidate tie s e (firstExponent s e - n) = some (shortest tie s e) := by
  obtain ⟨d, found⟩ := Option.isSome_iff_exists.mp
    (candidate_isSome tie (exists_readsBack_of_seventeen (e := e) bound positive))
  have some_found : ((List.range 17).findSome? fun (n : ℕ) =>
      candidate tie s e (firstExponent s e - n)).isSome = true := by
    rw [List.isSome_findSome?]
    refine List.any_eq_true.mpr ⟨16, by decide, ?_⟩
    exact Option.isSome_iff_exists.mpr ⟨d, found⟩
  obtain ⟨d', found'⟩ := Option.isSome_iff_exists.mp some_found
  obtain ⟨n, listed, same⟩ := List.exists_of_findSome?_eq_some found'
  refine ⟨n, List.mem_range.mp listed, same.trans ?_⟩
  change some d' = some (((List.range 17).findSome? fun (n : ℕ) =>
    candidate tie s e (firstExponent s e - n)).getD ⟨0, 0⟩)
  rw [found', Option.getD_some]

theorem shortest_eq_of_candidate {tie : Tie} {s : ℕ} {e : ℤ} {d : Decimal}
    (h : candidate tie s e (firstExponent s e) = some d) : shortest tie s e = d := by
  have found : (List.range 17).findSome? (fun (n : ℕ) =>
      candidate tie s e (firstExponent s e - n)) = some d := by
    rw [List.range_succ_eq_map, List.findSome?_cons, Nat.cast_zero, sub_zero, h]
  change ((List.range 17).findSome? fun (n : ℕ) =>
    candidate tie s e (firstExponent s e - n)).getD ⟨0, 0⟩ = d
  rw [found, Option.getD_some]

section

variable (tie : Tie) {s : ℕ} {e : ℤ}

theorem readsBack_shortest (bound : s < 2 ^ 53) (positive : 0 < s) :
    readsBack s e (shortest tie s e) = true := by
  obtain ⟨n, -, found⟩ := exists_candidate_eq_shortest tie (e := e) bound positive
  exact (candidate_eq_some found).1

theorem ten_zpow_eq_mul (k : ℤ) (n : ℕ) : (10 : ℚ) ^ k = 10 ^ n * 10 ^ (k - n) := by
  rw [← zpow_natCast, ← zpow_add₀ (by norm_num)]
  congr 1
  ring

/-- The coefficient of the shortest decimal has the digits from the first of the value to the last
of its grid, or is the next power of ten. -/
theorem exists_shortest_eq (bound : s < 2 ^ 53) (positive : 0 < s) :
    ∃ n c : ℕ, shortest tie s e = ⟨c, firstExponent s e - n⟩ ∧ n < 17 ∧ 10 ^ n ≤ c ∧
      c ≤ 10 ^ (n + 1) := by
  obtain ⟨n, few, found⟩ := exists_candidate_eq_shortest tie (e := e) bound positive
  obtain ⟨above, below⟩ := firstExponent_spec e positive
  obtain ⟨lower, upper⟩ := gridPlace_spec s e (firstExponent s e - n)
  have grid : (0 : ℚ) < 10 ^ (firstExponent s e - n) := by positivity
  rw [ten_zpow_eq_mul _ n] at above
  rw [ten_zpow_eq_mul _ (n + 1), Nat.cast_add, Nat.cast_one, add_sub_add_right_eq_sub] at below
  have least : 10 ^ n ≤ gridPlace s e (firstExponent s e - n) := by
    have := lt_of_mul_lt_mul_right (above.trans_lt upper) grid.le
    exact Nat.lt_succ_iff.mp (by exact_mod_cast this)
  have most : gridPlace s e (firstExponent s e - n) + 1 ≤ 10 ^ (n + 1) := by
    have := lt_of_mul_lt_mul_right (lower.trans_lt below) grid.le
    exact Nat.succ_le_of_lt (by exact_mod_cast this)
  rcases (candidate_eq_some found).2 with same | same
  · exact ⟨n, _, same, few, least, by omega⟩
  · exact ⟨n, _, same, few, by omega, most⟩

theorem shortest_spec (bound : s < 2 ^ 53) (positive : 0 < s) :
    0 < (shortest tie s e).coefficient ∧ 10 ^ firstExponent s e ≤ (shortest tie s e).value ∧
      (shortest tie s e).value ≤ 10 ^ (firstExponent s e + 1) := by
  obtain ⟨n, c, same, -, least, most⟩ := exists_shortest_eq tie (e := e) bound positive
  have some_place : 0 < 10 ^ n := Nat.pow_pos (by norm_num)
  rw [same, Decimal.value, ten_zpow_eq_mul (firstExponent s e) n,
    ten_zpow_eq_mul (firstExponent s e + 1) (n + 1), Nat.cast_add, Nat.cast_one,
    add_sub_add_right_eq_sub]
  refine ⟨some_place.trans_le least, ?_, ?_⟩
  · gcongr
    exact_mod_cast least
  · gcongr
    exact_mod_cast most

/-- The few least doubles, of which a power of ten may be the shortest decimal. -/
theorem readsBack_next_power_of_small : ∀ s ∈ [1, 2, 3, 4, 5, 6, 7, 8, 9], ∀ tie ∈ [Tie.up, .even],
    readsBack s (-1074) ⟨1, (shortest tie s (-1074)).exponent + 1⟩ = false := by
  decide +kernel

theorem shortest_eq_of_readsBack_next {s : ℕ} {e : ℤ} (large : 10 ≤ s)
    (h : readsBack s e ⟨1, firstExponent s e + 1⟩ = true) :
    shortest tie s e = ⟨10, firstExponent s e⟩ := by
  have positive : 0 < s := by omega
  have grid : (0 : ℚ) < 2 ^ e := by positivity
  have large' : (10 : ℚ) ≤ s := by exact_mod_cast large
  obtain ⟨above, below⟩ := firstExponent_spec e positive
  obtain ⟨lower, upper⟩ := gridPlace_spec s e (firstExponent s e)
  have ten : (10 : ℚ) ^ (firstExponent s e + 1) = 10 * 10 ^ firstExponent s e := by
    rw [zpow_add₀ (by norm_num), zpow_one, mul_comm]
  have same (c : ℕ) : (Decimal.mk c (firstExponent s e)).value = c * 10 ^ firstExponent s e := rfl
  have next : (Decimal.mk 1 (firstExponent s e + 1)).value = 10 * 10 ^ firstExponent s e := by
    rw [Decimal.value, ten, Nat.cast_one, one_mul]
  rw [readsBack_iff positive, next] at h
  have high := h.bounds.2
  have step : (10 * 2 ^ e : ℚ) ≤ s * 2 ^ e := by gcongr
  rw [highEnd] at high
  rw [ten] at below
  have width : (0 : ℚ) < 10 ^ firstExponent s e := by positivity
  have place : gridPlace s e (firstExponent s e) = 9 := by
    have most : (gridPlace s e (firstExponent s e) : ℚ) < 10 :=
      lt_of_mul_lt_mul_right (lower.trans_lt below) width.le
    have least : (9 : ℚ) < gridPlace s e (firstExponent s e) + 1 := by
      refine lt_of_mul_lt_mul_right (lt_of_lt_of_le ?_ upper.le) width.le
      linarith
    have most' : gridPlace s e (firstExponent s e) < 10 := by exact_mod_cast most
    have least' : 9 < gridPlace s e (firstExponent s e) + 1 := by exact_mod_cast least
    omega
  have reads : readsBack s e ⟨10, firstExponent s e⟩ = true := by
    rw [readsBack_iff positive, same]
    exact_mod_cast h
  have lacks : readsBack s e ⟨9, firstExponent s e⟩ = false := by
    rw [← Bool.not_eq_true, readsBack_iff positive, same]
    intro within
    have low := (sub_half_le_lowEnd s e).trans within.bounds.1
    push_cast at low
    linarith
  obtain ⟨d, found⟩ := Option.isSome_iff_exists.mp
    (candidate_isSome tie (Or.inr (by rw [place]; exact reads)))
  rw [shortest_eq_of_candidate found]
  obtain ⟨back, d_eq | d_eq⟩ := candidate_eq_some found <;> rw [place] at d_eq
  · rw [d_eq, lacks] at back
    cases back
  · exact d_eq

/-- The power of ten above the shortest decimal does not read back. -/
theorem readsBack_next_power {s : ℕ} {e : ℤ} (canonical : Canonical s e) (positive : 0 < s) :
    readsBack s e ⟨1, (shortest tie s e).exponent + 1⟩ = false := by
  rcases Nat.lt_or_ge s 10 with small | large
  · have least : e = -1074 := canonical.normal.resolve_left (by omega)
    rw [least]
    refine readsBack_next_power_of_small s ?_ tie (by cases tie <;> decide)
    interval_cases s <;> decide
  · obtain ⟨coefficient, lower, upper⟩ := shortest_spec tie (e := e) canonical.bound positive
    obtain ⟨begins, ends⟩ := Decimal.exponent_spec coefficient
    have first_le := le_of_zpow_le_of_lt lower ends
    have le_next := (zpow_le_zpow_iff_right₀ (by norm_num)).mp (begins.trans upper)
    rw [← Bool.not_eq_true]
    intro reads
    rcases first_le.lt_or_eq with less | same
    · have next : (shortest tie s e).exponent = firstExponent s e + 1 := by omega
      rw [next, readsBack_iff positive] at reads
      have high := reads.bounds.2
      have below := (firstExponent_spec e positive).2
      have large' : (10 : ℚ) ≤ s := by exact_mod_cast large
      have step : (10 * 2 ^ e : ℚ) ≤ s * 2 ^ e := by gcongr
      have width : (0 : ℚ) < 10 ^ (firstExponent s e + 1) := by positivity
      rw [highEnd, Decimal.value, zpow_add₀ (by norm_num), zpow_one, Nat.cast_one, one_mul] at high
      linarith
    · rw [← same] at reads
      have shortest_eq := shortest_eq_of_readsBack_next tie large reads
      rw [shortest_eq, Decimal.exponent] at same
      have count : digitCount 10 = 2 := by decide
      simp only [count] at same
      omega

end

end FermiQuiz.Number
