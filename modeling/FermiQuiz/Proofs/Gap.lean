import Mathlib
import FermiQuiz.Hint
import FermiQuiz.Proofs.Magnitude
import FermiQuiz.Proofs.Number.Logarithm
import FermiQuiz.Proofs.Number.Power

/-!
# The gap between an answer and a guess

A player who looks for an order of magnitude guesses `3 * 10 ^ k`. Given logarithms that are about
right, the gap from such a guess to an answer is the number of missing powers of ten, up to an
error that is a little larger than a half on one side. So the factor that a hint names may be one
too many for a low guess and one too few for a high one, and no more than that.
-/

namespace FermiQuiz

open Number

/-! ### Factors -/

theorem le_roundUp_iff {num den n : ℕ} (positive : 0 < den) :
    n ≤ roundUp num den ↔ (n - 1 / 2 : ℚ) ≤ num / den := by
  have den_pos : (0 : ℚ) < den := by exact_mod_cast positive
  unfold roundUp
  rw [Nat.le_div_iff_mul_le (by omega), le_div_iff₀ den_pos, ← Nat.cast_le (α := ℚ)]
  push_cast
  constructor <;> intro h <;> linarith

theorem gapFactor_bounds {gap : Float} {s : ℕ} {e : ℤ} {a b : ℕ}
    (parts : Parts.ofFloat gap.abs = .finite false s e) (lower : (a - 1 / 2 : ℚ) ≤ s * 2 ^ e)
    (upper : (s * 2 ^ e : ℚ) < b + 1 / 2) (small : b ≤ 1000) :
    max (a : ℤ) 1 ≤ gapFactor gap ∧ gapFactor gap ≤ max (b : ℤ) 1 := by
  rw [← numerator_div_denominator] at lower upper
  have least := (le_roundUp_iff (denominator_pos e)).mpr lower
  have most : roundUp (numerator s e) (denominator e) ≤ b := by
    by_contra! above
    have beyond := (le_roundUp_iff (denominator_pos e)).mp (Nat.succ_le_of_lt above)
    push_cast at beyond
    linarith
  unfold gapFactor roundWithin
  rw [parts]
  simp only [Bool.false_eq_true, if_false]
  omega

/-! ### Answers -/

/-- The order of magnitude is the logarithm rounded down, give or take the rounding of the powers
of ten. -/
theorem logb_bounds_of_magnitude {x : Float} {m : ℤ} (h : magnitude x = .ok m)
    (lower : -300 ≤ m) (upper : m ≤ 300) :
    m - 1 / 1000 ≤ Real.logb 10 (value x) ∧ Real.logb 10 (value x) ≤ m + 1 + 1 / 1000 := by
  have positive : (0 : ℝ) < value x := by
    exact_mod_cast value_pos (exists_magnitude_iff.mp ⟨m, h⟩)
  have ten : (1 : ℝ) < 10 := by norm_num
  have low := (Rat.cast_le (K := ℝ)).mpr
    (power_le_value_of_le_magnitude h (by omega) (by omega) le_rfl)
  have high := (Rat.cast_le (K := ℝ)).mpr
    (value_lt_power_of_magnitude_lt h (by omega) (by omega) (lt_add_one m)).le
  push_cast at low high
  have log_low := Real.logb_le_logb_of_le ten (by positivity) low
  have log_high := Real.logb_le_logb_of_le ten positive high
  rw [logb_zpow_mul _ (by norm_num)] at log_low log_high
  have near_low := abs_le.mp (abs_logb_le (y := 1 - 1 / 2 ^ 53) (r := 1 / 2000) (by norm_num)
    (by norm_num [abs_le]))
  have near_high := abs_le.mp (abs_logb_le (y := 1 + 1 / 2 ^ 53) (r := 1 / 2000) (by norm_num)
    (by norm_num [abs_le]))
  push_cast at log_high
  constructor <;> linarith

/-! ### Guesses -/

/-- The guess of a player who looks for the order of magnitude `k`. -/
def guessAt (k : ℤ) : Float := 3.0 * powerOfTen k

theorem three_mul_pow_le : (3 * 10 ^ 301 : ℚ) ≤ 2 ^ 1020 := by
  have whole : 3 * 10 ^ 301 ≤ 2 ^ 1020 := by decide +kernel
  exact_mod_cast whole

theorem moderate_three_mul_pow {k : ℤ} (small : k.natAbs ≤ 301) : Moderate (3 * 10 ^ k) := by
  constructor
  · calc (2 : ℚ) ^ (-1020 : ℤ) = (2 ^ 1020)⁻¹ := zpow_neg 2 1020
      _ ≤ (3 * 10 ^ 301)⁻¹ := inv_anti₀ (by positivity) three_mul_pow_le
      _ ≤ 3 * (10 ^ 301)⁻¹ := by
        rw [mul_inv]
        gcongr
        norm_num
      _ = 3 * 10 ^ (-301 : ℤ) := by rw [zpow_neg]; rfl
      _ ≤ 3 * 10 ^ k := by
        gcongr
        · norm_num
        · omega
  · calc (3 * 10 ^ k : ℚ) ≤ 3 * 10 ^ (301 : ℤ) := by
          gcongr
          · norm_num
          · omega
      _ ≤ 2 ^ (1020 : ℤ) := three_mul_pow_le

theorem guessAt_spec {k : ℤ} (small : k.natAbs ≤ 301) :
    isPositive (guessAt k) = true ∧ 3 * 10 ^ k * (1 - 1 / 10000) ≤ value (guessAt k) ∧
      value (guessAt k) ≤ 3 * 10 ^ k * (1 + 1 / 10000) := by
  have three : Parts.ofFloat 3.0 = .finite false 6755399441055744 (-51) := by decide +kernel
  have power := isClose_powerOfTen small
  have width : (0 : ℚ) < 10 ^ k := by positivity
  have start := isClose_self three
  rw [value_eq three] at start
  norm_num at start
  have guess := start.mul power three_pos width (by omega) (moderate_three_mul_pow small)
  obtain ⟨⟨s, e, parts⟩, lower, upper⟩ := guess.mono (by positivity)
    (show 0 + (k.natAbs / 16 + 1) + 1 ≤ 1000 by omega)
  have factor := slack_pow_le (le_refl 1000)
  have guess_pos := guess.value_pos (by positivity)
  have lower' : 3 * 10 ^ k ≤ value (guessAt k) * (1 + 1 / 2 ^ 40) :=
    lower.trans (mul_le_mul_of_nonneg_left factor guess_pos.le)
  have upper' : value (guessAt k) ≤ 3 * 10 ^ k * (1 + 1 / 2 ^ 40) :=
    upper.trans (mul_le_mul_of_nonneg_left factor (by positivity))
  refine ⟨isPositive_of_value_pos parts guess_pos, ?_, ?_⟩ <;> linarith

theorem magnitude_guessAt {k : ℤ} (small : k.natAbs ≤ 301) : magnitude (guessAt k) = .ok k := by
  obtain ⟨positive, lower, upper⟩ := guessAt_spec small
  obtain ⟨m, same⟩ := exists_magnitude_iff.mpr positive
  have width : (0 : ℚ) < 10 ^ k := by positivity
  have reaches : k ≤ m := by
    by_contra! short
    have below := value_lt_power_of_magnitude_lt same (by omega) (by omega) short
    linarith
  have ends : ¬ k + 1 ≤ m := by
    intro beyond
    have above := power_le_value_of_le_magnitude same (by omega) (by omega) beyond
    rw [zpow_add₀ (by norm_num), zpow_one] at above
    linarith
  rw [same, show m = k by omega]

theorem logb_guessAt_bounds {k : ℤ} (small : k.natAbs ≤ 301) :
    (k + 953 / 2000 : ℝ) ≤ Real.logb 10 (value (guessAt k)) ∧
      Real.logb 10 (value (guessAt k)) ≤ k + 957 / 2000 := by
  obtain ⟨positive, lower, upper⟩ := guessAt_spec small
  have guess_pos : (0 : ℝ) < value (guessAt k) := by exact_mod_cast value_pos positive
  have ten : (1 : ℝ) < 10 := by norm_num
  have low := (Rat.cast_le (K := ℝ)).mpr lower
  have high := (Rat.cast_le (K := ℝ)).mpr upper
  push_cast at low high
  have low' : (10 : ℝ) ^ k * (29997 / 10000) ≤ value (guessAt k) := by linarith
  have high' : (value (guessAt k) : ℝ) ≤ 10 ^ k * (30003 / 10000) := by linarith
  have log_low := Real.logb_le_logb_of_le ten (by positivity) low'
  have log_high := Real.logb_le_logb_of_le ten guess_pos high'
  rw [logb_zpow_mul _ (by norm_num)] at log_low log_high
  have near_low := le_logb_of_zpow_le (y := 29997 / 10000) (a := 953) (b := 2000) (by norm_num) (by
      have whole : 10 ^ 953 * 10000 ^ 2000 ≤ 29997 ^ 2000 := by decide +kernel
      rw [zpow_ofNat, div_pow, le_div_iff₀ (by positivity)]
      exact_mod_cast whole)
  have near_high := logb_le_of_le_zpow (y := 30003 / 10000) (a := 957) (b := 2000) (by norm_num)
    (by norm_num) (by
      have whole : 30003 ^ 2000 ≤ 10 ^ 957 * 10000 ^ 2000 := by decide +kernel
      rw [zpow_ofNat, div_pow, div_le_iff₀ (by positivity)]
      exact_mod_cast whole)
  push_cast at near_low near_high
  constructor <;> linarith

/-! ### Gaps -/

section

variable [Elementary] {answer guess : Float}

theorem exists_parts_gapBetween (accurate : AccurateLog) (ha : isPositive answer = true)
    (hg : isPositive guess = true)
    (apart : 1 / 4 ≤ |Real.logb 10 (value answer) - Real.logb 10 (value guess)|)
    (near : |Real.logb 10 (value answer) - Real.logb 10 (value guess)| ≤ 700) :
    ∃ s e, Parts.ofFloat (gapBetween answer guess).abs = .finite false s e ∧
      abs (((s * 2 ^ e : ℚ) : ℝ) -
        |Real.logb 10 (value answer) - Real.logb 10 (value guess)|) ≤ 21 / 10000 := by
  obtain ⟨finite, error⟩ := accurate answer ha
  obtain ⟨finite', error'⟩ := accurate guess hg
  obtain ⟨n, s, e, parts⟩ := isFinite_iff.mp finite
  obtain ⟨n', s', e', parts'⟩ := isFinite_iff.mp finite'
  obtain ⟨negative, nearest, -⟩ := isNearest_sub parts parts'
  set real := Real.logb 10 (value answer) - Real.logb 10 (value guess) with real_eq
  set gap := value (Elementary.log10 answer) - value (Elementary.log10 guess) with gap_eq
  have gap_near : |(gap : ℝ) - real| ≤ 1 / 500 := by
    have split : (gap : ℝ) - real =
        value (Elementary.log10 answer) - Real.logb 10 (value answer) -
          (value (Elementary.log10 guess) - Real.logb 10 (value guess)) := by
      rw [gap_eq, real_eq]
      push_cast
      ring
    rw [split]
    exact (abs_sub _ _).trans ((add_le_add error error').trans (by norm_num))
  have size_near := abs_le.mp ((abs_abs_sub_abs_le (gap : ℝ) real).trans gap_near)
  have large : (1 / 8 : ℚ) ≤ |gap| := by
    rw [← Rat.cast_le (K := ℝ)]
    push_cast
    linarith
  have small : |gap| ≤ 1024 := by
    rw [← Rat.cast_le (K := ℝ)]
    push_cast
    linarith
  have normal : (2 : ℚ) ^ (-1022 : ℤ) ≤ 2 ^ (-3 : ℤ) := zpow_le_zpow_right₀ one_le_two (by norm_num)
  have normal' : (2 : ℚ) ^ (10 : ℤ) ≤ 2 ^ (1023 : ℤ) := zpow_le_zpow_right₀ one_le_two (by norm_num)
  obtain ⟨s, e, parts, rounded⟩ := nearest.exists_parts
    (normal.trans ((by norm_num : (2 : ℚ) ^ (-3 : ℤ) ≤ 1 / 8).trans large))
    ((small.trans (by norm_num : (1024 : ℚ) ≤ 2 ^ (10 : ℤ))).trans normal')
  refine ⟨s, e, ofFloat_abs parts, ?_⟩
  have rounded' : abs ((s * 2 ^ e : ℚ) - |gap|) ≤ 1 / 10000 := by
    refine rounded.trans ?_
    rw [div_le_div_iff₀ (by positivity) (by norm_num)]
    linarith
  obtain ⟨below, above⟩ := abs_le.mp rounded'
  have below' := (Rat.cast_le (K := ℝ)).mpr below
  have above' := (Rat.cast_le (K := ℝ)).mpr above
  push_cast at below' above'
  rw [abs_le]
  push_cast
  constructor <;> linarith

/-- The factor of a gap whose real size lies between `n` and `n + 1`, or a little outside. -/
theorem gapFactor_of_near (accurate : AccurateLog) (ha : isPositive answer = true)
    (hg : isPositive guess = true) {n : ℕ} (few : n ≤ 601) {size : ℝ}
    (real : |Real.logb 10 (value answer) - Real.logb 10 (value guess)| = size)
    (apart : 1 / 4 ≤ size) (least : n - 48 / 100 ≤ size) (most : size ≤ n + 1 + 48 / 100) :
    max (n : ℤ) 1 ≤ gapFactor (gapBetween answer guess) ∧
      gapFactor (gapBetween answer guess) ≤ n + 1 := by
  have few' : (n : ℝ) ≤ 601 := by exact_mod_cast few
  obtain ⟨s, e, parts, near⟩ := exists_parts_gapBetween accurate ha hg
    (by rw [real]; exact apart) (by rw [real]; linarith)
  rw [real] at near
  obtain ⟨below, above⟩ := abs_le.mp near
  have bounds := gapFactor_bounds (a := n) (b := n + 1) parts
    (by rw [← Rat.cast_le (K := ℝ)]; push_cast at below ⊢; linarith)
    (by rw [← Rat.cast_lt (K := ℝ)]; push_cast at above ⊢; linarith) (by omega)
  omega

end

/-! ### Answers and guesses -/

section

variable {answer : Float} {m k : ℤ}

theorem logb_sub_bounds (h : magnitude answer = .ok m) (lower : -300 ≤ m) (upper : m ≤ 300)
    (small : k.natAbs ≤ 301) :
    (m - k - 4795 / 10000 : ℝ) ≤
        Real.logb 10 (value answer) - Real.logb 10 (value (guessAt k)) ∧
      Real.logb 10 (value answer) - Real.logb 10 (value (guessAt k)) ≤ m - k + 5245 / 10000 := by
  obtain ⟨low, high⟩ := logb_bounds_of_magnitude h lower upper
  obtain ⟨low', high'⟩ := logb_guessAt_bounds small
  constructor <;> linarith

/-- A guess made for another order of magnitude lies on the side of the answer that it should. -/
theorem answer_lt_guessAt_iff (h : magnitude answer = .ok m) (lower : -300 ≤ m) (upper : m ≤ 300)
    (small : k.natAbs ≤ 301) (other : k ≠ m) : answer < guessAt k ↔ m < k := by
  have positive := exists_magnitude_iff.mp ⟨m, h⟩
  obtain ⟨guess_positive, -, -⟩ := guessAt_spec small
  obtain ⟨s, e, parts, -⟩ := isPositive_iff.mp positive
  obtain ⟨s', e', parts', -⟩ := isPositive_iff.mp guess_positive
  have pos : (0 : ℝ) < value answer := by exact_mod_cast value_pos positive
  have pos' : (0 : ℝ) < value (guessAt k) := by exact_mod_cast value_pos guess_positive
  obtain ⟨low, high⟩ := logb_sub_bounds h lower upper small
  rw [lt_iff_value_lt parts parts', ← Rat.cast_lt (K := ℝ),
    ← Real.logb_lt_logb_iff (by norm_num : (1 : ℝ) < 10) pos pos']
  constructor
  · intro less
    by_contra! above
    have step : (k : ℝ) + 1 ≤ m := by exact_mod_cast lt_of_le_of_ne above other
    linarith
  · intro less
    have step : (m : ℝ) + 1 ≤ k := by exact_mod_cast less
    linarith

variable [Elementary]

/-- The factor named to a low guess is the missing number of powers of ten, or one more. -/
theorem gapFactor_of_low (accurate : AccurateLog) (h : magnitude answer = .ok m)
    (lower : -300 ≤ m) (upper : m ≤ 300) (small : k.natAbs ≤ 301) (low : k < m) :
    m - k ≤ gapFactor (gapBetween answer (guessAt k)) ∧
      gapFactor (gapBetween answer (guessAt k)) ≤ m - k + 1 := by
  obtain ⟨guess_positive, -, -⟩ := guessAt_spec small
  obtain ⟨least, most⟩ := logb_sub_bounds h lower upper small
  obtain ⟨n, rfl⟩ : ∃ n : ℕ, m = k + n := ⟨(m - k).toNat, by omega⟩
  have one : (1 : ℝ) ≤ n := by exact_mod_cast (by omega : 1 ≤ n)
  push_cast at least most
  have bounds := gapFactor_of_near accurate (exists_magnitude_iff.mp ⟨_, h⟩) guess_positive
    (n := n) (by omega) (abs_of_pos (by linarith)) (by linarith) (by linarith) (by linarith)
  omega

/-- The factor named to a high guess is the number of powers of ten that are too many, or one less
if it is more than one. -/
theorem gapFactor_of_high (accurate : AccurateLog) (h : magnitude answer = .ok m)
    (lower : -300 ≤ m) (upper : m ≤ 300) (small : k.natAbs ≤ 301) (high : m < k) :
    max (k - m - 1) 1 ≤ gapFactor (gapBetween answer (guessAt k)) ∧
      gapFactor (gapBetween answer (guessAt k)) ≤ k - m := by
  obtain ⟨guess_positive, -, -⟩ := guessAt_spec small
  obtain ⟨least, most⟩ := logb_sub_bounds h lower upper small
  obtain ⟨n, rfl⟩ : ∃ n : ℕ, k = m + n + 1 := ⟨(k - m - 1).toNat, by omega⟩
  have some_gap : (0 : ℝ) ≤ n := by positivity
  push_cast at least most
  have bounds := gapFactor_of_near accurate (exists_magnitude_iff.mp ⟨_, h⟩) guess_positive
    (n := n) (by omega) (abs_of_neg (by linarith)) (by linarith) (by linarith) (by linarith)
  omega

end

end FermiQuiz
