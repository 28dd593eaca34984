import Mathlib
import FermiQuiz.Number.Power
import FermiQuiz.Number.Shortest
import FermiQuiz.Proofs.Number.Decimal

/-!
# Decimal logarithms

What the game needs of the platform's logarithm is that it is within a thousandth of the real one.
A logarithm in steps, which counts the digits of a power, is that close when the steps are short.
-/

namespace FermiQuiz.Number

/-- Logarithms that are finite and within a thousandth of the real ones. -/
def AccurateLog [Elementary] : Prop :=
  ∀ x : Float, isPositive x = true → (Elementary.log10 x).isFinite = true ∧
    |(value (Elementary.log10 x) : ℝ) - Real.logb 10 (value x)| ≤ 1 / 1000

/-! ### Real logarithms -/

theorem abs_logb_le {y r : ℝ} (small : r ≤ 1 / 2) (near : |y - 1| ≤ r) :
    |Real.logb 10 y| ≤ 2 * r := by
  obtain ⟨lower, upper⟩ := abs_le.mp near
  have positive : 0 < y := by linarith
  have ten : 1 ≤ Real.log 10 := by
    rw [Real.le_log_iff_exp_le (by norm_num)]
    exact Real.exp_one_lt_d9.le.trans (by norm_num)
  have above := Real.log_le_sub_one_of_pos positive
  have below := Real.one_sub_inv_le_log_of_pos positive
  have inverse : y⁻¹ ≤ 1 + 2 * r := by
    rw [inv_le_iff_one_le_mul₀ positive]
    nlinarith
  have log_le : |Real.log y| ≤ 2 * r := abs_le.mpr ⟨by linarith, by linarith⟩
  rw [Real.logb, abs_div, abs_of_pos (by linarith : 0 < Real.log 10)]
  exact (div_le_self (abs_nonneg _) ten).trans log_le

theorem logb_zpow_mul (k : ℤ) {y : ℝ} (nonzero : y ≠ 0) :
    Real.logb 10 (10 ^ k * y) = k + Real.logb 10 y := by
  rw [Real.logb_mul (by positivity) nonzero, ← Real.rpow_intCast,
    Real.logb_rpow (by norm_num) (by norm_num)]

theorem logb_zpow (k : ℤ) : Real.logb 10 ((10 : ℝ) ^ k) = k := by
  rw [← Real.rpow_intCast, Real.logb_rpow (by norm_num) (by norm_num)]

theorem le_logb_of_zpow_le {y : ℝ} {a : ℤ} {b : ℕ} (hb : 0 < b) (h : (10 : ℝ) ^ a ≤ y ^ b) :
    (a / b : ℝ) ≤ Real.logb 10 y := by
  have cast : (0 : ℝ) < b := by exact_mod_cast hb
  have logs := Real.logb_le_logb_of_le (b := 10) (by norm_num) (by positivity) h
  rw [Real.logb_pow, logb_zpow] at logs
  rwa [div_le_iff₀ cast, mul_comm]

theorem logb_le_of_le_zpow {y : ℝ} {a : ℤ} {b : ℕ} (positive : 0 < y) (hb : 0 < b)
    (h : y ^ b ≤ (10 : ℝ) ^ a) : Real.logb 10 y ≤ (a / b : ℝ) := by
  have cast : (0 : ℝ) < b := by exact_mod_cast hb
  have logs := Real.logb_le_logb_of_le (b := 10) (by norm_num) (by positivity) h
  rw [Real.logb_pow, logb_zpow] at logs
  rwa [le_div_iff₀ cast, mul_comm]

/-! ### A logarithm in steps -/

def dyadic (n : ℤ) (j : ℕ) : Float :=
  if n < 0 then -nearest n.natAbs (2 ^ j) else nearest n.natAbs (2 ^ j)

/-- The decimal logarithm of a positive double, rounded down to a multiple of `2 ^ -j`. -/
def steppedLog (j : ℕ) (x : Float) : Float :=
  match Parts.ofFloat x with
  | .finite false s e =>
    dyadic (leadingExponent (numerator s e ^ 2 ^ j) (denominator e ^ 2 ^ j)) j
  | _ => 0.0 / 0.0

theorem dyadic_spec {n : ℤ} {j : ℕ} (bound : n.natAbs < 2 ^ 53) (hj : j ≤ 1074) :
    (dyadic n j).isFinite = true ∧ value (dyadic n j) = n / 2 ^ j := by
  have rounded := isNearest_nearest n.natAbs (Nat.two_pow_pos j)
  have split : (n.natAbs : ℚ) / (2 ^ j : ℕ) = n.natAbs * 2 ^ (-(j : ℤ)) := by
    rw [zpow_neg, zpow_natCast, div_eq_mul_inv]
    push_cast
    rfl
  rw [split] at rounded
  obtain ⟨s, e, parts, same⟩ := rounded.exact bound (by omega) (by omega)
  rw [← split] at same
  push_cast at same
  unfold dyadic
  split
  · next negative =>
    have parts' := ofFloat_neg parts
    refine ⟨isFinite_iff.mpr ⟨_, _, _, parts'⟩, ?_⟩
    rw [value_eq_of_finite parts', Bool.not_false, if_pos rfl, same, Nat.cast_natAbs,
      abs_of_neg negative, Int.cast_neg, neg_div, neg_neg]
  · next nonneg =>
    refine ⟨isFinite_iff.mpr ⟨_, _, _, parts⟩, ?_⟩
    rw [value_eq parts, same, Nat.cast_natAbs, abs_of_nonneg (not_lt.mp nonneg)]

theorem value_bounds {x : Float} (positive : isPositive x = true) :
    (10 : ℚ) ^ (-1074 : ℤ) ≤ value x ∧ value x ≤ 10 ^ (1024 : ℤ) := by
  obtain ⟨s, e, parts, hs⟩ := isPositive_iff.mp positive
  obtain ⟨bound, least, -⟩ := canonical_of_finite parts
  have most := exponent_le_of_finite parts
  have one : (1 : ℚ) ≤ s := by exact_mod_cast hs
  have full : (s : ℚ) ≤ 2 ^ 53 := by exact_mod_cast bound.le
  rw [value_eq parts]
  constructor
  · calc (10 : ℚ) ^ (-1074 : ℤ) = (10 ^ (1074 : ℤ))⁻¹ := zpow_neg 10 1074
      _ ≤ (2 ^ (1074 : ℤ))⁻¹ := inv_anti₀ (zpow_pos two_pos _)
          (zpow_le_zpow_left₀ (by norm_num) two_pos.le (by norm_num))
      _ = 2 ^ (-1074 : ℤ) := (zpow_neg 2 1074).symm
      _ ≤ 2 ^ e := zpow_le_zpow_right₀ one_le_two least
      _ ≤ s * 2 ^ e := le_mul_of_one_le_left (zpow_pos two_pos e).le one
  · calc (s * 2 ^ e : ℚ) ≤ 2 ^ 53 * 2 ^ (971 : ℤ) :=
          mul_le_mul full (zpow_le_zpow_right₀ one_le_two most) (zpow_pos two_pos e).le
            (pow_pos two_pos _).le
      _ = 2 ^ (53 + 971) := (pow_add 2 53 971).symm
      _ ≤ 10 ^ 1024 := pow_le_pow_left₀ two_pos.le (by norm_num) _

theorem steppedLog_spec {x : Float} {j : ℕ} (positive : isPositive x = true) (hj : j ≤ 32) :
    (steppedLog j x).isFinite = true ∧ (value (steppedLog j x) : ℝ) ≤ Real.logb 10 (value x) ∧
      Real.logb 10 (value x) ≤ value (steppedLog j x) + 1 / 2 ^ j := by
  obtain ⟨least, most⟩ := value_bounds positive
  have width := value_pos positive
  obtain ⟨s, e, parts, hs⟩ := isPositive_iff.mp positive
  have num_pos : 0 < numerator s e ^ 2 ^ j :=
    Nat.pow_pos (Nat.mul_pos hs (Nat.two_pow_pos _))
  have den_pos : 0 < denominator e ^ 2 ^ j := Nat.pow_pos (denominator_pos e)
  obtain ⟨lower, upper⟩ := leadingExponent_spec num_pos den_pos
  have power : ((numerator s e ^ 2 ^ j : ℕ) : ℚ) / (denominator e ^ 2 ^ j : ℕ) =
      value x ^ 2 ^ j := by
    push_cast
    rw [← div_pow, numerator_div_denominator, value_eq parts]
  have counted : steppedLog j x =
      dyadic (leadingExponent (numerator s e ^ 2 ^ j) (denominator e ^ 2 ^ j)) j := by
    rw [steppedLog, parts]
  rw [power] at lower upper
  generalize leadingExponent (numerator s e ^ 2 ^ j) (denominator e ^ 2 ^ j) = n at *
  have steps : 2 ^ j ≤ 2 ^ 32 := Nat.pow_le_pow_right two_pos hj
  have below : n ≤ 1024 * (2 ^ j : ℕ) := by
    have grown : value x ^ 2 ^ j ≤ 10 ^ (1024 * (2 ^ j : ℕ) : ℤ) := by
      rw [zpow_mul, zpow_natCast]
      exact pow_le_pow_left₀ width.le most _
    exact (zpow_le_zpow_iff_right₀ (by norm_num)).mp (lower.trans grown)
  have above : -1074 * (2 ^ j : ℕ) < n + 1 := by
    have grown : (10 : ℚ) ^ (-1074 * (2 ^ j : ℕ) : ℤ) ≤ value x ^ 2 ^ j := by
      rw [zpow_mul, zpow_natCast]
      exact pow_le_pow_left₀ (zpow_pos (by norm_num) _).le least _
    exact (zpow_lt_zpow_iff_right₀ (by norm_num)).mp (grown.trans_lt upper)
  obtain ⟨finite, same⟩ := dyadic_spec (n := n) (j := j) (by omega) (by omega)
  rw [counted]
  refine ⟨finite, ?_⟩
  have positive' : (0 : ℝ) < value x := by exact_mod_cast width
  have lower' := (Rat.cast_le (K := ℝ)).mpr lower
  have upper' := (Rat.cast_le (K := ℝ)).mpr upper.le
  push_cast at lower' upper'
  have log_lower := le_logb_of_zpow_le (Nat.two_pow_pos j) lower'
  have log_upper := logb_le_of_le_zpow positive' (Nat.two_pow_pos j) upper'
  rw [same]
  push_cast at log_lower log_upper ⊢
  exact ⟨log_lower, by rwa [← add_div]⟩

theorem accurateLog_steppedLog (exp2 : Float → Float) : @AccurateLog ⟨steppedLog 10, exp2⟩ := by
  intro x positive
  obtain ⟨finite, lower, upper⟩ := steppedLog_spec positive (j := 10) (by norm_num)
  refine ⟨finite, ?_⟩
  change abs ((value (steppedLog 10 x) : ℝ) - _) ≤ _
  rw [abs_le]
  norm_num at upper
  constructor <;> linarith

end FermiQuiz.Number
