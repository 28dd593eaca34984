import Mathlib
import FermiQuiz.Number.Shortest
import FermiQuiz.Proofs.Number.Arithmetic

/-!
# Decimals

The power of ten that a number starts at, the number that a decimal stands for, and the double that
is nearest to a decimal.
-/

namespace FermiQuiz.Number

/-! ### The first digit -/

theorem digitCount_pos (n : ℕ) : 0 < digitCount n := Nat.length_toDigits_pos

theorem digitCount_le_iff {n k : ℕ} (positive : 0 < k) : digitCount n ≤ k ↔ n < 10 ^ k :=
  Nat.length_toDigits_le_iff (by norm_num) positive

theorem lt_pow_digitCount (n : ℕ) : n < 10 ^ digitCount n :=
  (digitCount_le_iff (digitCount_pos n)).mp le_rfl

theorem pow_digitCount_le {n : ℕ} (positive : 0 < n) : 10 ^ (digitCount n - 1) ≤ n := by
  by_contra! less
  rcases Nat.eq_zero_or_pos (digitCount n - 1) with zero | more
  · rw [zero, pow_zero] at less
    omega
  · have := (digitCount_le_iff more).mpr less
    omega

theorem digitCount_spec {n : ℕ} (positive : 0 < n) :
    10 ^ ((digitCount n : ℤ) - 1) ≤ (n : ℚ) ∧ (n : ℚ) < 10 ^ (digitCount n : ℤ) := by
  have count := digitCount_pos n
  have cast : (digitCount n : ℤ) - 1 = ((digitCount n - 1 : ℕ) : ℤ) := by omega
  rw [cast, zpow_natCast, zpow_natCast]
  exact ⟨by exact_mod_cast pow_digitCount_le positive, by exact_mod_cast lt_pow_digitCount n⟩

theorem leadingExponent_spec {num den : ℕ} (hn : 0 < num) (hd : 0 < den) :
    10 ^ leadingExponent num den ≤ (num / den : ℚ) ∧
      (num / den : ℚ) < 10 ^ (leadingExponent num den + 1) := by
  have num_pos : (0 : ℚ) < num := by exact_mod_cast hn
  have den_pos : (0 : ℚ) < den := by exact_mod_cast hd
  unfold leadingExponent
  split
  · next large =>
    have whole : 0 < num / den := Nat.div_pos large hd
    obtain ⟨lower, -⟩ := digitCount_spec whole
    have upper : num < 10 ^ digitCount (num / den) * den :=
      (Nat.div_lt_iff_lt_mul hd).mp (lt_pow_digitCount (num / den))
    have upper' : (num : ℚ) < 10 ^ digitCount (num / den) * den := by exact_mod_cast upper
    refine ⟨lower.trans Nat.cast_div_le, ?_⟩
    rw [sub_add_cancel, zpow_natCast, div_lt_iff₀ den_pos]
    exact upper'
  · next small =>
    have whole : 0 < (den - 1) / num := Nat.div_pos (by omega) hn
    have upper : 10 ^ (digitCount ((den - 1) / num) - 1) * num ≤ den - 1 :=
      (Nat.le_div_iff_mul_le hn).mp (pow_digitCount_le whole)
    have lower : den - 1 < 10 ^ digitCount ((den - 1) / num) * num :=
      (Nat.div_lt_iff_lt_mul hn).mp (lt_pow_digitCount ((den - 1) / num))
    have count := digitCount_pos ((den - 1) / num)
    generalize digitCount ((den - 1) / num) = k at upper lower count
    have upper' : (10 : ℚ) ^ (k - 1) * num < den := by
      have : 10 ^ (k - 1) * num < den := by omega
      exact_mod_cast this
    have lower' : (den : ℚ) ≤ 10 ^ k * num := by
      have : den ≤ 10 ^ k * num := by omega
      exact_mod_cast this
    constructor
    · rw [zpow_neg, zpow_natCast, le_div_iff₀ den_pos, inv_mul_le_iff₀ (by positivity)]
      exact lower'
    · have cast : -(k : ℤ) + 1 = -((k - 1 : ℕ) : ℤ) := by omega
      rw [cast, zpow_neg, zpow_natCast, div_lt_iff₀ den_pos, lt_inv_mul_iff₀ (by positivity)]
      exact upper'

theorem le_of_zpow_le_of_lt {j k : ℤ} {q : ℚ} (le : 10 ^ j ≤ q) (lt : q < 10 ^ (k + 1)) :
    j ≤ k :=
  Int.lt_add_one_iff.mp ((zpow_lt_zpow_iff_right₀ (by norm_num)).mp (le.trans_lt lt))

/-! ### The number of a decimal -/

namespace Decimal

def value (d : Decimal) : ℚ := d.coefficient * 10 ^ d.scale

theorem denominator_pos (d : Decimal) : 0 < d.denominator := Nat.pow_pos (by norm_num)

theorem value_eq_div (d : Decimal) : d.value = d.numerator / d.denominator := by
  unfold value numerator denominator
  simp only [Nat.pow_eq]
  push_cast
  rw [pow_toNat (by norm_num) d.scale]
  field_simp

theorem exponent_spec {d : Decimal} (positive : 0 < d.coefficient) :
    10 ^ d.exponent ≤ d.value ∧ d.value < 10 ^ (d.exponent + 1) := by
  obtain ⟨lower, upper⟩ := digitCount_spec positive
  have ten : (10 : ℚ) ≠ 0 := by norm_num
  have first : d.exponent = (digitCount d.coefficient - 1) + d.scale := by
    unfold exponent
    ring
  have next : d.exponent + 1 = digitCount d.coefficient + d.scale := by
    unfold exponent
    ring
  rw [next, first, zpow_add₀ ten, zpow_add₀ ten, value]
  exact ⟨by gcongr, by gcongr⟩

end Decimal

/-! ### The nearest double of a decimal -/

theorem exists_roundsTo (n : ℕ) (k : ℤ) : ∃ s e, RoundsTo (n * 10 ^ k) s e := by
  obtain ⟨s, e, rounds, -⟩ := nearestBits_spec (Decimal.numerator ⟨n, k⟩)
    (Decimal.denominator_pos ⟨n, k⟩)
  rw [← Decimal.value_eq_div] at rounds
  exact ⟨s, e, rounds⟩

theorem isNearest_infinity {n : ℕ} {k : ℤ} (large : (10 : ℚ) ^ (310 : ℕ) ≤ n * 10 ^ k) :
    IsNearest (Float.ofBits infinityBits.toUInt64) false (n * 10 ^ k) := by
  obtain ⟨s, e, rounds⟩ := exists_roundsTo n k
  have least : Canonical (2 ^ 52) 972 := ⟨by norm_num, by norm_num, Or.inl le_rfl⟩
  have enough : ((2 ^ 52 : ℕ) : ℚ) * 2 ^ (972 : ℤ) ≤ n * 10 ^ k := by
    refine le_trans ?_ large
    have : 2 ^ 52 * 2 ^ 972 ≤ 10 ^ 310 := by decide +kernel
    exact_mod_cast this
  have above : infinityBits ≤ bitsOf s e := least.roundsTo.bitsOf_le rounds enough
  refine ⟨s, e, rounds, ?_⟩
  rw [min_eq_right above, toNat_toBits_ofBits (by decide)]
  rfl

theorem ten_zpow_le_half : (10 : ℚ) ^ (-330 : ℤ) ≤ 1 / 2 * 2 ^ (-1074 : ℤ) := by
  have : 2 * 2 ^ 1074 ≤ 10 ^ 330 := by decide +kernel
  have cast : (2 * 2 ^ 1074 : ℚ) ≤ 10 ^ 330 := by exact_mod_cast this
  rw [zpow_neg, zpow_neg, one_div, ← mul_inv]
  exact inv_anti₀ (by positivity) cast

theorem isNearest_zero {q : ℚ} (nonneg : 0 ≤ q) (small : q < 10 ^ (-330 : ℤ)) :
    IsNearest 0.0 false q := by
  have below : q / 2 ^ (-1074 : ℤ) < 1 / 2 := by
    rw [div_lt_iff₀ (by positivity)]
    exact small.trans_le ten_zpow_le_half
  refine ⟨0, -1074, ⟨le_rfl, ?_, Or.inr rfl, ?_⟩, rfl⟩
  · refine (small.trans_le ten_zpow_le_half).trans ?_
    rw [zpow_add₀ two_ne_zero, mul_comm]
    gcongr
    norm_num
  · have rounded := IsRoundEven.of_lt_half (t := 0) (div_nonneg nonneg (by positivity)) below
    rwa [Nat.cast_zero, zero_add] at rounded

/-- `nearestDecimal` is correctly rounded, also where it does not compute the number. -/
theorem isNearest_nearestDecimal (n : ℕ) (k : ℤ) :
    IsNearest (nearestDecimal n k) false (n * 10 ^ k) := by
  have ten : (10 : ℚ) ≠ 0 := by norm_num
  unfold nearestDecimal
  split
  · next zero =>
    rw [zero, Nat.cast_zero, zero_mul]
    exact isNearest_zero le_rfl (by positivity)
  · next nonzero =>
    obtain ⟨lower, upper⟩ := digitCount_spec (Nat.pos_of_ne_zero nonzero)
    simp only
    split
    · next large =>
      refine isNearest_infinity ?_
      calc (10 : ℚ) ^ (310 : ℕ) = 10 ^ (310 : ℤ) := (zpow_natCast 10 310).symm
        _ ≤ 10 ^ ((digitCount n : ℤ) - 1 + k) := zpow_le_zpow_right₀ (by norm_num) (by omega)
        _ = 10 ^ ((digitCount n : ℤ) - 1) * 10 ^ k := zpow_add₀ ten ..
        _ ≤ n * 10 ^ k := by gcongr
    · split
      · next small =>
        refine isNearest_zero (by positivity) ?_
        calc (n * 10 ^ k : ℚ) < 10 ^ (digitCount n : ℤ) * 10 ^ k := by gcongr
          _ = 10 ^ ((digitCount n : ℤ) + k) := (zpow_add₀ ten ..).symm
          _ ≤ 10 ^ (-330 : ℤ) := zpow_le_zpow_right₀ (by norm_num) (by omega)
      · have rounded := isNearest_nearest (Decimal.numerator ⟨n, k⟩)
          (Decimal.denominator_pos ⟨n, k⟩)
        rwa [← Decimal.value_eq_div] at rounded

end FermiQuiz.Number
