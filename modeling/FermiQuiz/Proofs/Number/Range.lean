import Mathlib
import FermiQuiz.Proofs.Number.Monotone
import FermiQuiz.Proofs.Number.Shortest

/-!
# The range of doubles

Which numbers are rounded to finite doubles and which to positive ones. The least number that
overflows lies half a place above the largest double, and a number up to half the least positive
double goes to zero.
-/

namespace FermiQuiz.Number

/-- Where the numbers begin that are rounded to infinity. -/
def overflow : ℚ := (2 ^ 53 - 1 / 2) * 2 ^ (971 : ℤ)

/-- Where the numbers end that are rounded to zero. -/
def underflow : ℚ := 1 / 2 * 2 ^ (-1074 : ℤ)

theorem bitsOf_le_iff_of_even {q : ℚ} {s s' : ℕ} {e e' : ℤ} (rounds : RoundsTo q s' e')
    (canonical : Canonical s e) (even : s % 2 = 0) :
    bitsOf s e ≤ bitsOf s' e' ↔ lowEnd s e ≤ q := by
  constructor
  · intro le
    by_contra! below
    have less : q ≤ s * 2 ^ e := by
      refine below.le.trans ?_
      rw [lowEnd]
      gcongr
      exact sub_le_self _ (by positivity)
    have same := (rounds.bitsOf_le canonical.roundsTo less).antisymm le
    exact absurd (within_of_roundsTo canonical rounds same).bounds.1 below.not_ge
  · intro low
    rcases le_total q (s * 2 ^ e) with below | above
    · have within : Within s e q := by
        unfold Within
        rw [if_pos even]
        refine ⟨low, below.trans ?_⟩
        rw [highEnd]
        gcongr
        linarith
      obtain ⟨s₁, e₁, rounds₁, same⟩ := roundsTo_of_within canonical within
      rw [← same, rounds₁.bitsOf_eq rounds]
    · exact canonical.roundsTo.bitsOf_le rounds above

theorem bitsOf_pos_iff {q : ℚ} {s : ℕ} {e : ℤ} (rounds : RoundsTo q s e) :
    0 < bitsOf s e ↔ underflow < q := by
  have least : Canonical 1 (-1074) := ⟨by norm_num, le_rfl, Or.inr rfl⟩
  have low : lowEnd 1 (-1074) = underflow := by
    rw [lowEnd, underflow]
    norm_num [gapBelow]
  constructor
  · intro positive
    by_contra! below
    have less : q ≤ (1 : ℕ) * 2 ^ (-1074 : ℤ) := by
      refine below.trans ?_
      rw [underflow]
      gcongr
      norm_num
    have one : bitsOf s e = bitsOf 1 (-1074) :=
      (rounds.bitsOf_le least.roundsTo less).antisymm positive
    have within := within_of_roundsTo least rounds one
    unfold Within at within
    rw [if_neg (by norm_num), low] at within
    exact absurd within.1 below.not_gt
  · intro above
    change bitsOf 1 (-1074) ≤ bitsOf s e
    rcases le_total q ((1 : ℕ) * 2 ^ (-1074 : ℤ)) with below | above'
    · have within : Within 1 (-1074) q := by
        refine within_of_lt (low ▸ above) (below.trans_lt ?_)
        rw [highEnd]
        gcongr
        norm_num
      obtain ⟨s₁, e₁, rounds₁, same⟩ := roundsTo_of_within least within
      rw [← same, rounds₁.bitsOf_eq rounds]
    · exact least.roundsTo.bitsOf_le rounds above'

theorem bitsOf_lt_infinityBits_iff {q : ℚ} {s : ℕ} {e : ℤ} (rounds : RoundsTo q s e) :
    bitsOf s e < infinityBits ↔ q < overflow := by
  have next : Canonical (2 ^ 52) 972 := ⟨by norm_num, by norm_num, Or.inl le_rfl⟩
  have low : lowEnd (2 ^ 52) 972 = overflow := by
    have step : (2 : ℚ) ^ (972 : ℤ) = 2 ^ (971 : ℤ) * 2 := by
      rw [← zpow_add_one₀ two_ne_zero]
      rfl
    rw [lowEnd, gapBelow_of_full (by norm_num), overflow, step]
    generalize (2 : ℚ) ^ (971 : ℤ) = w
    push_cast
    ring
  rw [← not_le, ← not_le, ← low, ← bitsOf_le_iff_of_even rounds next (by norm_num)]
  rfl

theorem ten_pow_lt_overflow {n : ℕ} (bound : n ≤ 308) : (10 : ℚ) ^ n < overflow := by
  have most : (10 : ℚ) ^ n ≤ 10 ^ 308 := pow_le_pow_right₀ (by norm_num) bound
  have room : 2 * 10 ^ 308 < 18014398509481983 * 2 ^ 971 := by decide +kernel
  have room' : (2 * 10 ^ 308 : ℚ) < 18014398509481983 * 2 ^ 971 := by exact_mod_cast room
  rw [overflow, zpow_ofNat]
  generalize (2 : ℚ) ^ 971 = w at room' ⊢
  generalize (10 : ℚ) ^ 308 = p at room' most
  linarith

theorem underflow_lt_overflow : underflow < overflow := by
  have scale : (2 : ℚ) ^ (-1074 : ℤ) < 2 ^ (971 : ℤ) :=
    zpow_lt_zpow_right₀ one_lt_two (by norm_num)
  exact mul_lt_mul'' (by norm_num) scale (by norm_num) (by positivity)

/-! ### Nearest doubles -/

section

variable {x : Float} {negative : Bool} {q : ℚ}

theorem IsNearest.exists_finite_of_lt (h : IsNearest x negative q) (small : q < overflow) :
    ∃ s e s' e', Parts.ofFloat x = .finite negative s e ∧ RoundsTo q s' e' ∧
      bitsOf s e = bitsOf s' e' ∧ (s * 2 ^ e : ℚ) = s' * 2 ^ e' := by
  obtain ⟨s', e', rounds, bits⟩ := h
  obtain ⟨s, e, parts, same, value_same⟩ :=
    rounds.exists_finite bits ((bitsOf_lt_infinityBits_iff rounds).mpr small)
  exact ⟨s, e, s', e', parts, rounds, same, value_same⟩

theorem IsNearest.exists_parts_of_lt (h : IsNearest x negative q) (large : 2 ^ (-1022 : ℤ) ≤ q)
    (small : q < overflow) :
    ∃ s e, Parts.ofFloat x = .finite negative s e ∧ |s * 2 ^ e - q| ≤ q / 2 ^ 53 := by
  obtain ⟨s, e, s', e', parts, rounds, -, same⟩ := h.exists_finite_of_lt small
  refine ⟨s, e, parts, ?_⟩
  rw [same]
  exact rounds.relative_error_le large

/-- Also among the subnormal doubles the nearest one is not far off, except for the least. -/
theorem IsNearest.exists_parts_near (h : IsNearest x negative q) (large : 2 ^ (-1072 : ℤ) ≤ q)
    (small : q < overflow) :
    ∃ s e, Parts.ofFloat x = .finite negative s e ∧ |s * 2 ^ e - q| ≤ q / 8 := by
  obtain ⟨s, e, s', e', parts, rounds, -, same⟩ := h.exists_finite_of_lt small
  refine ⟨s, e, parts, ?_⟩
  rw [same]
  refine rounds.error_le.trans ?_
  rcases rounds.normal with normal | rfl
  · rw [zpow_add₀ two_ne_zero] at normal
    norm_num at normal
    linarith [show (0 : ℚ) < 2 ^ e' by positivity]
  · have step : (2 : ℚ) ^ (-1072 : ℤ) = 2 ^ (-1074 : ℤ) * 4 := by
      rw [show (4 : ℚ) = 2 ^ (2 : ℤ) by norm_num, ← zpow_add₀ two_ne_zero]
      rfl
    rw [step] at large
    linarith

/-- Rounding moves a number by one part in `2 ^ 53`, or by half the least positive double. -/
theorem IsNearest.exists_parts_error (h : IsNearest x negative q) (nonneg : 0 ≤ q)
    (small : q < overflow) :
    ∃ s e, Parts.ofFloat x = .finite negative s e ∧ |s * 2 ^ e - q| ≤ q / 2 ^ 53 + underflow := by
  obtain ⟨s, e, s', e', parts, rounds, -, same⟩ := h.exists_finite_of_lt small
  refine ⟨s, e, parts, ?_⟩
  rw [same]
  refine rounds.error_le.trans ?_
  rcases rounds.normal with normal | rfl
  · rw [zpow_add₀ two_ne_zero] at normal
    have half : 2 ^ e' / 2 ≤ q / 2 ^ 53 := by
      norm_num at normal ⊢
      linarith
    refine half.trans (le_add_of_nonneg_right ?_)
    unfold underflow
    positivity
  · rw [underflow, div_eq_inv_mul, ← one_div]
    exact le_add_of_nonneg_left (by positivity)

theorem IsNearest.infinite_of_le (h : IsNearest x negative q) (large : overflow ≤ q) :
    Parts.ofFloat x = .infinite negative := by
  obtain ⟨s, e, rounds, bits⟩ := h
  refine ofBits_eq_infinite_iff.mpr (bits.trans ?_)
  rw [min_eq_right (not_lt.mp ((bitsOf_lt_infinityBits_iff rounds).not.mpr large.not_gt))]

theorem IsNearest.isFinite_iff (h : IsNearest x negative q) : x.isFinite = true ↔ q < overflow := by
  rw [Number.isFinite_iff]
  constructor
  · rintro ⟨negative', s, e, parts⟩
    by_contra! large
    rw [h.infinite_of_le large] at parts
    cases parts
  · intro small
    obtain ⟨s, e, -, -, parts, -⟩ := h.exists_finite_of_lt small
    exact ⟨negative, s, e, parts⟩

theorem IsNearest.significand_pos_iff (h : IsNearest x negative q) {negative' : Bool} {s : ℕ}
    {e : ℤ} (parts : Parts.ofFloat x = .finite negative' s e) : 0 < s ↔ underflow < q := by
  have finite := Number.isFinite_iff.mpr ⟨_, _, _, parts⟩
  obtain ⟨s₁, e₁, s', e', parts', rounds, same, -⟩ :=
    h.exists_finite_of_lt (h.isFinite_iff.mp finite)
  rw [parts] at parts'
  cases parts'
  rw [← bitsOf_pos_iff rounds, ← same]
  refine ⟨bitsOf_pos, fun positive => Nat.pos_of_ne_zero fun zero => ?_⟩
  have least : e = -1074 := (canonical_of_finite parts).normal.resolve_left (by omega)
  rw [zero, least] at positive
  exact absurd positive (by decide)

theorem IsNearest.isPositive_iff (h : IsNearest x false q) :
    isPositive x = true ↔ underflow < q ∧ q < overflow := by
  rw [← h.isFinite_iff, Number.isPositive_iff]
  constructor
  · rintro ⟨s, e, parts, positive⟩
    exact ⟨(h.significand_pos_iff parts).mp positive, Number.isFinite_iff.mpr ⟨_, _, _, parts⟩⟩
  · rintro ⟨above, finite⟩
    obtain ⟨s, e, _, _, parts, -⟩ := h.exists_finite_of_lt (h.isFinite_iff.mp finite)
    exact ⟨s, e, parts, (h.significand_pos_iff parts).mpr above⟩

theorem IsNearest.beq_zero_iff (h : IsNearest x negative q) :
    (x == 0.0) = true ↔ q ≤ underflow := by
  rw [Number.beq_zero_iff, ← not_lt]
  constructor
  · rintro ⟨_, _, parts⟩
    rw [← h.significand_pos_iff parts]
    exact lt_irrefl 0
  · intro below
    have small : q < overflow := (not_lt.mp below).trans_lt underflow_lt_overflow
    obtain ⟨s, e, _, _, parts, -⟩ := h.exists_finite_of_lt small
    rw [← h.significand_pos_iff parts, Nat.pos_iff_ne_zero, not_not] at below
    exact ⟨negative, e, below ▸ parts⟩

end

/-! ### Products and quotients -/

open Float.Model (UnpackedFloat Format) in
theorem ofFloat_div_zero {x : Float} (hx : isPositive x = true) :
    Parts.ofFloat (x / 0.0) = .infinite false := by
  obtain ⟨s, e, hs, unpacked⟩ := unpack_of_isPositive hx
  refine ofBits_eq_infinite_iff.mpr ?_
  change (UnpackedFloat.pack Format.binary64 (UnpackedFloat.div Format.binary64
    x.toModel.unpack (0.0 : Float).toModel.unpack)).toNat = _
  rw [unpacked, unpack_zero, UnpackedFloat.div, UnpackedFloat.pack, toNat_packedInfinity]
  rfl

section

variable {x y : Float} (hx : isPositive x = true) (hy : isPositive y = true)

include hx hy

theorem isNearest_mul_of_isPositive : IsNearest (x * y) false (value x * value y) :=
  isNearest_mul_of_bits_lt (bits_lt_of_isPositive hx) (bits_lt_of_isPositive hy)

theorem isNearest_div_of_isPositive : IsNearest (x / y) false (value x / value y) :=
  isNearest_div_of_bits_lt hy (bits_lt_of_isPositive hx)

theorem isFinite_div_iff : (x / y).isFinite = true ↔ value x / value y < overflow :=
  (isNearest_div_of_isPositive hx hy).isFinite_iff

theorem isPositive_div_iff :
    isPositive (x / y) = true ↔ underflow < value x / value y ∧ value x / value y < overflow :=
  (isNearest_div_of_isPositive hx hy).isPositive_iff

end

end FermiQuiz.Number
