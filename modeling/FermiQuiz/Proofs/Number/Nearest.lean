import Mathlib
import FermiQuiz.Proofs.Number.Value

/-!
# Rounding to the nearest double

`RoundsTo q s e` says that `s * 2 ^ e` is the number nearest to `q` among the doubles of that
size, a tie going to the even significand. Rounding respects the order and keeps every double,
and `nearestBits` gives the bits of the result.
-/

namespace FermiQuiz.Number

/-! ### Rounding to whole numbers -/

/-- `r` is the whole number nearest to `x`, and even if another one is as near. -/
structure IsRoundEven (r : ℕ) (x : ℚ) : Prop where
  le_add : x ≤ r + 1 / 2
  sub_le : r - 1 / 2 ≤ x
  even : x = r + 1 / 2 ∨ x = r - 1 / 2 → r % 2 = 0

theorem IsRoundEven.self (r : ℕ) : IsRoundEven r r := by
  refine ⟨by linarith, by linarith, ?_⟩
  rintro (h | h) <;> linarith

theorem IsRoundEven.mono {r r' : ℕ} {x x' : ℚ} (h : IsRoundEven r x) (h' : IsRoundEven r' x')
    (le : x ≤ x') : r ≤ r' := by
  by_contra! less
  have next : (r' : ℚ) + 1 ≤ r := by exact_mod_cast less
  have above := h.sub_le
  have below := h'.le_add
  have same : (r : ℚ) = r' + 1 := by linarith
  have even := h.even (Or.inr (by linarith))
  have even' := h'.even (Or.inl (by linarith))
  have step : r = r' + 1 := by exact_mod_cast same
  omega

theorem IsRoundEven.of_lt_half {t : ℕ} {f : ℚ} (nonneg : 0 ≤ f) (lt : f < 1 / 2) :
    IsRoundEven t (t + f) := by
  refine ⟨by linarith, by linarith, ?_⟩
  rintro (h | h) <;> linarith

theorem IsRoundEven.of_half_lt {t : ℕ} {f : ℚ} (gt : 1 / 2 < f) (le : f ≤ 1) :
    IsRoundEven (t + 1) (t + f) := by
  refine ⟨by push_cast; linarith, by push_cast; linarith, ?_⟩
  rintro (h | h) <;> push_cast at h <;> linarith

theorem IsRoundEven.of_half (t : ℕ) : IsRoundEven (t + t % 2) (t + 1 / 2) := by
  rcases Nat.mod_two_eq_zero_or_one t with h | h <;> rw [h]
  · exact ⟨by simp, by push_cast; linarith, fun _ => by omega⟩
  · exact ⟨by push_cast; linarith, by push_cast; linarith, fun _ => by omega⟩

theorem div_eq_div_add_mod (num : ℕ) {den : ℕ} (positive : 0 < den) :
    (num : ℚ) / den = (num / den : ℕ) + ((num % den : ℕ) : ℚ) / den := by
  have den_pos : (0 : ℚ) < den := by exact_mod_cast positive
  have parts : ((den * (num / den) + num % den : ℕ) : ℚ) = num := by rw [Nat.div_add_mod]
  rw [← parts]
  push_cast
  field_simp

theorem roundEven_isRoundEven (num : ℕ) {den : ℕ} (positive : 0 < den) :
    IsRoundEven (roundEven num den) (num / den) := by
  have den_pos : (0 : ℚ) < den := by exact_mod_cast positive
  rw [div_eq_div_add_mod num positive]
  have rest_lt : num % den < den := Nat.mod_lt num positive
  unfold roundEven
  generalize num % den = rest at rest_lt ⊢
  generalize num / den = t
  have rest_lt' : (rest : ℚ) < den := by exact_mod_cast rest_lt
  simp only
  split
  · next small =>
    have small' : (2 * rest : ℚ) < den := by exact_mod_cast small
    refine .of_lt_half (by positivity) ?_
    rw [div_lt_div_iff₀ den_pos two_pos]
    linarith
  · split
    · next large =>
      have large' : (den : ℚ) < 2 * rest := by exact_mod_cast large
      refine .of_half_lt ?_ ((div_le_one den_pos).mpr rest_lt'.le)
      rw [div_lt_div_iff₀ two_pos den_pos]
      linarith
    · have tie : 2 * rest = den := by omega
      have half : (rest : ℚ) / den = 1 / 2 := by
        rw [← tie]
        push_cast
        have : (rest : ℚ) ≠ 0 := by
          rintro h
          have : rest = 0 := by exact_mod_cast h
          omega
        field_simp
      rw [half]
      have rounded := IsRoundEven.of_half t
      rcases Nat.mod_two_eq_zero_or_one t with h | h
      · rw [if_pos h]
        rwa [h] at rounded
      · rw [if_neg (by omega)]
        rwa [h] at rounded

/-! ### Rounding to doubles -/

/-- `s * 2 ^ e` is the number nearest to `q` on the grid of the doubles of its size. The
significand may be `2 ^ 53`, which is the least one of the next grid. -/
structure RoundsTo (q : ℚ) (s : ℕ) (e : ℤ) : Prop where
  lower : -1074 ≤ e
  upper : q < 2 ^ (e + 53)
  normal : 2 ^ (e + 52) ≤ q ∨ e = -1074
  near : IsRoundEven s (q / 2 ^ e)

theorem RoundsTo.le_bound {q : ℚ} {s : ℕ} {e : ℤ} (h : RoundsTo q s e) : s ≤ 2 ^ 53 := by
  refine h.near.mono (.self (2 ^ 53)) ?_
  have upper := h.upper
  rw [zpow_add₀ two_ne_zero, mul_comm] at upper
  rw [div_le_iff₀ (by positivity)]
  exact_mod_cast upper.le

theorem RoundsTo.normal_or {q : ℚ} {s : ℕ} {e : ℤ} (h : RoundsTo q s e) :
    2 ^ 52 ≤ s ∨ e = -1074 := by
  refine h.normal.imp_left fun normal => (IsRoundEven.self (2 ^ 52)).mono h.near ?_
  rw [zpow_add₀ two_ne_zero, mul_comm] at normal
  rw [le_div_iff₀ (by positivity)]
  exact_mod_cast normal

theorem RoundsTo.bitsOf_le {q q' : ℚ} {s s' : ℕ} {e e' : ℤ} (h : RoundsTo q s e)
    (h' : RoundsTo q' s' e') (le : q ≤ q') : bitsOf s e ≤ bitsOf s' e' := by
  have lower := h.lower
  have lower' := h'.lower
  unfold bitsOf
  rcases lt_trichotomy e e' with lt | rfl | gt
  · have bound := h.le_bound
    have large : 2 ^ 52 ≤ s' := h'.normal_or.resolve_right (by omega)
    omega
  · have := h.near.mono h'.near (by gcongr)
    omega
  · exfalso
    have large := h.normal.resolve_right (by omega)
    have step : (2 : ℚ) ^ (e' + 53) ≤ 2 ^ (e + 52) := zpow_le_zpow_right₀ one_le_two (by omega)
    linarith [h'.upper]

theorem RoundsTo.bitsOf_eq {q : ℚ} {s s' : ℕ} {e e' : ℤ} (h : RoundsTo q s e)
    (h' : RoundsTo q s' e') : bitsOf s e = bitsOf s' e' :=
  le_antisymm (h.bitsOf_le h' le_rfl) (h'.bitsOf_le h le_rfl)

theorem Canonical.roundsTo {s : ℕ} {e : ℤ} (h : Canonical s e) : RoundsTo (s * 2 ^ e) s e := by
  have grid : (0 : ℚ) < 2 ^ e := by positivity
  refine ⟨h.lower, ?_, ?_, ?_⟩
  · rw [zpow_add₀ two_ne_zero, mul_comm]
    gcongr
    exact_mod_cast h.bound
  · refine h.normal.imp_left fun normal => ?_
    rw [zpow_add₀ two_ne_zero, mul_comm]
    gcongr
    exact_mod_cast normal
  · rw [mul_div_assoc, div_self grid.ne', mul_one]
    exact .self s

/-- The double that a number is rounded to, with a full significand carried over to the next
grid. -/
theorem RoundsTo.exists_canonical {q : ℚ} {s : ℕ} {e : ℤ} (h : RoundsTo q s e) :
    ∃ s' e', Canonical s' e' ∧ bitsOf s' e' = bitsOf s e ∧ (s' * 2 ^ e' : ℚ) = s * 2 ^ e := by
  have lower := h.lower
  rcases h.le_bound.lt_or_eq with bound | rfl
  · exact ⟨s, e, ⟨bound, lower, h.normal_or⟩, rfl, rfl⟩
  · refine ⟨2 ^ 52, e + 1, ⟨by norm_num, by omega, Or.inl le_rfl⟩, ?_, ?_⟩
    · unfold bitsOf
      omega
    · rw [zpow_add₀ two_ne_zero]
      push_cast
      ring

theorem bitsOf_le_bitsOf_iff {s s' : ℕ} {e e' : ℤ} (h : Canonical s e) (h' : Canonical s' e') :
    bitsOf s e ≤ bitsOf s' e' ↔ (s * 2 ^ e : ℚ) ≤ s' * 2 ^ e' := by
  refine ⟨fun le => ?_, h.roundsTo.bitsOf_le h'.roundsTo⟩
  rcases le_total (s * 2 ^ e : ℚ) (s' * 2 ^ e') with below | above
  · exact below
  · obtain ⟨rfl, rfl⟩ := eq_of_bitsOf_eq h h' (le.antisymm (h'.roundsTo.bitsOf_le h.roundsTo above))
    exact le_rfl

theorem Canonical.bitsOf_eq_zero_iff {s : ℕ} {e : ℤ} (h : Canonical s e) :
    bitsOf s e = 0 ↔ s = 0 := by
  obtain ⟨-, lower, normal⟩ := h
  unfold bitsOf
  omega

section

variable {x y : Float} {nx ny : Bool} {s s' : ℕ} {e e' : ℤ}

theorem rank_le_iff_value_le (hx : Parts.ofFloat x = .finite nx s e)
    (hy : Parts.ofFloat y = .finite ny s' e') : rank x ≤ rank y ↔ value x ≤ value y := by
  have cx := canonical_of_finite hx
  have cy := canonical_of_finite hy
  have size : (0 : ℚ) ≤ s * 2 ^ e := by positivity
  have size' : (0 : ℚ) ≤ s' * 2 ^ e' := by positivity
  rw [rank_of_finite hx, rank_of_finite hy, value_eq_of_finite hx, value_eq_of_finite hy]
  cases nx <;> cases ny <;> simp only [if_true, Bool.false_eq_true, if_false]
  · rw [Nat.cast_le, bitsOf_le_bitsOf_iff cx cy]
  · have zero : bitsOf s e ≤ -(bitsOf s' e' : ℤ) ↔ s = 0 ∧ s' = 0 := by
      rw [← cx.bitsOf_eq_zero_iff, ← cy.bitsOf_eq_zero_iff]
      omega
    rw [zero]
    constructor
    · rintro ⟨rfl, rfl⟩
      simp
    · intro le
      have none : (s * 2 ^ e : ℚ) = 0 := by linarith
      have none' : (s' * 2 ^ e' : ℚ) = 0 := by linarith
      have power (k : ℤ) : (2 : ℚ) ^ k ≠ 0 := zpow_ne_zero k two_ne_zero
      exact ⟨Nat.cast_eq_zero.mp ((mul_eq_zero_iff_right (power e)).mp none),
        Nat.cast_eq_zero.mp ((mul_eq_zero_iff_right (power e')).mp none')⟩
  · constructor <;> intro <;> [linarith; omega]
  · rw [neg_le_neg_iff, neg_le_neg_iff, Nat.cast_le, bitsOf_le_bitsOf_iff cy cx]

/-- Finite doubles are ordered as their values. -/
theorem le_iff_value_le (hx : Parts.ofFloat x = .finite nx s e)
    (hy : Parts.ofFloat y = .finite ny s' e') : x ≤ y ↔ value x ≤ value y := by
  rw [le_iff_rank_le (isNaN_of_finite hx) (isNaN_of_finite hy), rank_le_iff_value_le hx hy]

theorem lt_iff_value_lt (hx : Parts.ofFloat x = .finite nx s e)
    (hy : Parts.ofFloat y = .finite ny s' e') : x < y ↔ value x < value y := by
  rw [lt_iff_rank_lt (isNaN_of_finite hx) (isNaN_of_finite hy), ← not_le, ← not_le,
    rank_le_iff_value_le hy hx]

end

theorem RoundsTo.error_le {q : ℚ} {s : ℕ} {e : ℤ} (h : RoundsTo q s e) :
    |s * 2 ^ e - q| ≤ 2 ^ e / 2 := by
  have grid : (0 : ℚ) < 2 ^ e := by positivity
  have above := h.near.le_add
  have below := h.near.sub_le
  rw [div_le_iff₀ grid] at above
  rw [le_div_iff₀ grid] at below
  rw [abs_le]
  constructor <;> linarith

/-- Rounding moves a number by at most one part in `2 ^ 53`, unless it is too small. -/
theorem RoundsTo.relative_error_le {q : ℚ} {s : ℕ} {e : ℤ} (h : RoundsTo q s e)
    (large : 2 ^ (-1022 : ℤ) ≤ q) : |s * 2 ^ e - q| ≤ q / 2 ^ 53 := by
  have normal : 2 ^ (e + 52) ≤ q := by
    rcases h.normal with normal | rfl
    · exact normal
    · exact large
  rw [zpow_add₀ two_ne_zero] at normal
  refine h.error_le.trans ?_
  rw [div_le_div_iff₀ two_pos (by positivity)]
  norm_num at normal ⊢
  linarith

/-! ### The nearest double of a quotient -/

theorem pow_toNat {a : ℚ} (nonzero : a ≠ 0) (e : ℤ) : a ^ e.toNat = a ^ e * a ^ (-e).toNat := by
  rw [← zpow_natCast, ← zpow_natCast, ← zpow_add₀ nonzero]
  congr 1
  omega

theorem numerator_div_denominator (s : ℕ) (e : ℤ) :
    (numerator s e : ℚ) / denominator e = s * 2 ^ e := by
  unfold numerator denominator
  simp only [Nat.pow_eq]
  push_cast
  rw [pow_toNat two_ne_zero e]
  field_simp

theorem binaryExponent_spec {num den : ℕ} (hn : 0 < num) (hd : 0 < den) :
    2 ^ binaryExponent num den ≤ (num / den : ℚ) ∧
      (num / den : ℚ) < 2 ^ (binaryExponent num den + 1) := by
  have num_pos : (0 : ℚ) < num := by exact_mod_cast hn
  have den_pos : (0 : ℚ) < den := by exact_mod_cast hd
  have num_ge : (2 : ℚ) ^ num.log2 ≤ num := by exact_mod_cast Nat.log2_self_le hn.ne'
  have num_lt : (num : ℚ) < 2 ^ (num.log2 + 1) := by exact_mod_cast Nat.lt_log2_self
  have den_ge : (2 : ℚ) ^ den.log2 ≤ den := by exact_mod_cast Nat.log2_self_le hd.ne'
  have den_lt : (den : ℚ) < 2 ^ (den.log2 + 1) := by exact_mod_cast Nat.lt_log2_self
  unfold binaryExponent
  simp only [Nat.pow_eq]
  have test : den * 2 ^ ((num.log2 : ℤ) - den.log2).toNat ≤
      num * 2 ^ (-((num.log2 : ℤ) - den.log2)).toNat ↔
      2 ^ ((num.log2 : ℤ) - den.log2) ≤ (num / den : ℚ) := by
    generalize (num.log2 : ℤ) - den.log2 = e
    rw [← Nat.cast_le (α := ℚ), le_div_iff₀ den_pos]
    push_cast
    rw [pow_toNat two_ne_zero e, ← mul_assoc, mul_comm (den : ℚ)]
    exact mul_le_mul_iff_of_pos_right (by positivity)
  split
  · next h =>
    refine ⟨test.mp h, ?_⟩
    rw [div_lt_iff₀ den_pos]
    calc (num : ℚ) < 2 ^ (num.log2 + 1) := num_lt
      _ = 2 ^ ((num.log2 : ℤ) - den.log2 + 1) * 2 ^ den.log2 := by
        rw [← zpow_natCast, ← zpow_natCast, ← zpow_add₀ two_ne_zero]
        congr 1
        push_cast
        ring
      _ ≤ 2 ^ ((num.log2 : ℤ) - den.log2 + 1) * den := by gcongr
  · next h =>
    refine ⟨?_, by simpa using not_le.mp (test.not.mp h)⟩
    rw [le_div_iff₀ den_pos]
    calc 2 ^ ((num.log2 : ℤ) - den.log2 - 1) * (den : ℚ)
        ≤ 2 ^ ((num.log2 : ℤ) - den.log2 - 1) * 2 ^ (den.log2 + 1) := by gcongr
      _ = 2 ^ num.log2 := by
        rw [← zpow_natCast, ← zpow_natCast, ← zpow_add₀ two_ne_zero]
        congr 1
        push_cast
        ring
      _ ≤ num := num_ge

/-- `nearestBits` rounds a quotient, and gives the bits of infinity beyond the largest double. -/
theorem nearestBits_spec (num : ℕ) {den : ℕ} (hd : 0 < den) :
    ∃ s e, RoundsTo (num / den) s e ∧ nearestBits num den = min (bitsOf s e) infinityBits := by
  rcases Nat.eq_zero_or_pos num with rfl | hn
  · refine ⟨0, -1074, ?_, by simp [nearestBits, bitsOf]⟩
    rw [Nat.cast_zero, zero_div]
    refine ⟨le_rfl, by positivity, Or.inr rfl, ?_⟩
    rw [zero_div]
    exact .self 0
  · obtain ⟨le, lt⟩ := binaryExponent_spec hn hd
    unfold nearestBits
    simp only [Nat.pow_eq]
    rw [if_neg hn.ne']
    refine ⟨_, _, ⟨le_max_right _ _, lt.trans_le ?_, ?_, ?_⟩, rfl⟩
    · exact zpow_le_zpow_right₀ one_le_two (by omega)
    · rcases le_total (-1074) (binaryExponent num den - 52) with h | h
      · left
        rwa [max_eq_left h, sub_add_cancel]
      · right
        exact max_eq_right h
    · generalize max (binaryExponent num den - 52) (-1074) = e
      have rounded := roundEven_isRoundEven (num * 2 ^ (-e).toNat)
        (Nat.mul_pos hd (Nat.two_pow_pos e.toNat))
      convert rounded using 1
      push_cast
      rw [pow_toNat two_ne_zero e]
      field_simp

end FermiQuiz.Number
