import Mathlib
import FermiQuiz.Proofs.Json.Number

/-!
# How much of a number is read back

A double is written as its shortest decimal, and reading rounds the digits, the power of ten and
each result. So a double comes back within a few places of itself. It comes back as it was if its
literal is short, for then only the result is rounded.
-/

namespace FermiQuiz.Json

open Number

/-! ### Relative errors -/

/-- `v` is off from `q` by the part `r` of it at most. -/
def IsOff (r v q : ℚ) : Prop := |v - q| ≤ r * q

section

variable {r r' v v' q q' : ℚ}

theorem IsOff.bounds (h : IsOff r v q) : (1 - r) * q ≤ v ∧ v ≤ (1 + r) * q := by
  obtain ⟨low, high⟩ := abs_le.mp h
  constructor <;> linarith

theorem isOff_of_bounds (low : (1 - r) * q ≤ v) (high : v ≤ (1 + r) * q) : IsOff r v q := by
  refine abs_le.mpr ⟨?_, ?_⟩ <;> linarith

theorem IsOff.mul (h : IsOff r v q) (h' : IsOff r' v' q') (nonneg : 0 ≤ q) (nonneg' : 0 ≤ q')
    (part : 0 ≤ r) : IsOff (r + r' + r * r') (v * v') (q * q') := by
  obtain ⟨low', high'⟩ := h'.bounds
  have size : |v'| ≤ (1 + r') * q' := by
    refine abs_le.mpr ⟨?_, high'⟩
    linarith
  calc |v * v' - q * q'| = |(v - q) * v' + q * (v' - q')| := by congr 1; ring
    _ ≤ |v - q| * |v'| + q * |v' - q'| := by
      rw [← abs_mul, ← abs_of_nonneg nonneg, ← abs_mul, abs_of_nonneg nonneg]
      exact abs_add_le _ _
    _ ≤ r * q * ((1 + r') * q') + q * (r' * q') := by
      have first : |v - q| ≤ r * q := h
      have second : |v' - q'| ≤ r' * q' := h'
      gcongr
    _ = (r + r' + r * r') * (q * q') := by ring

theorem IsOff.div (h : IsOff r v q) (h' : IsOff r' v' q') (positive : 0 < q) (positive' : 0 < q')
    (part : 0 ≤ r) (part' : 0 ≤ r') (small : r + 2 * r' < 1) :
    IsOff (r + 2 * r') (v / v') (q / q') := by
  obtain ⟨low, high⟩ := h.bounds
  obtain ⟨low', high'⟩ := h'.bounds
  have least : 0 < (1 - r') * q' := mul_pos (by linarith) positive'
  have v'_pos : 0 < v' := least.trans_le low'
  have square : 0 ≤ r' * (r + 2 * r') := by positivity
  have room : 0 ≤ r' * (1 - (r + 2 * r')) := mul_nonneg part' (by linarith)
  refine isOff_of_bounds ?_ ?_
  · rw [mul_div_assoc', div_le_div_iff₀ positive' v'_pos]
    calc (1 - (r + 2 * r')) * q * v' ≤ (1 - (r + 2 * r')) * q * ((1 + r') * q') := by
          have rest : 0 ≤ 1 - (r + 2 * r') := by linarith
          gcongr
      _ = ((1 - (r + 2 * r')) * (1 + r')) * q * q' := by ring
      _ ≤ (1 - r) * q * q' := by
          gcongr
          linarith
      _ ≤ v * q' := by gcongr
  · rw [mul_div_assoc', div_le_div_iff₀ v'_pos positive']
    calc v * q' ≤ (1 + r) * q * q' := by gcongr
      _ ≤ ((1 + (r + 2 * r')) * (1 - r')) * q * q' := by
          gcongr
          linarith
      _ = (1 + (r + 2 * r')) * q * ((1 - r') * q') := by ring
      _ ≤ (1 + (r + 2 * r')) * q * v' := by gcongr

theorem IsOff.rounded {x : Float} (h : IsOff r v q) (nearest : IsNearest x false v)
    (good : isPositive x = true) :
    |value x - q| ≤ (r + (1 + r) / 2 ^ 53) * q + underflow := by
  obtain ⟨above, below⟩ := nearest.isPositive_iff.mp good
  have nonneg : 0 ≤ v := le_trans (by unfold underflow; positivity) above.le
  obtain ⟨s, e, parts, error⟩ := nearest.exists_parts_error nonneg below
  rw [← value_eq parts] at error
  have high := h.bounds.2
  calc |value x - q| ≤ |value x - v| + |v - q| := abs_sub_le ..
    _ ≤ v / 2 ^ 53 + underflow + r * q := add_le_add error h
    _ ≤ (1 + r) * q / 2 ^ 53 + underflow + r * q := by gcongr
    _ = (r + (1 + r) / 2 ^ 53) * q + underflow := by ring

end

/-! ### Scaling -/

section

variable {n m : ℕ} {k : ℤ}

theorem isOff_toFloat (positive : 0 < n) (few : n < 10 ^ 18) :
    IsOff (1 / 2 ^ 53) (value n.toUInt64.toFloat) n := by
  obtain ⟨s, e, parts, near⟩ := exists_parts_toFloat_of_lt positive few
  rw [IsOff, value_eq parts, one_div_mul_eq_div]
  exact near

theorem isOff_tenTo (bound : m ≤ 308) : IsOff (1 / 2 ^ 53) (value (tenTo m)) (10 ^ m) := by
  obtain ⟨s, e, parts, near⟩ := exists_parts_tenTo_of_le bound
  rw [IsOff, value_eq parts, one_div_mul_eq_div]
  exact near

theorem isPositive_tenTo (bound : m ≤ 308) : isPositive (tenTo m) = true := by
  obtain ⟨s, e, parts, -⟩ := exists_parts_tenTo_of_le bound
  have power : (0 : ℚ) < 10 ^ m := by positivity
  refine isPositive_of_value_pos parts ?_
  linarith [(isOff_tenTo bound).bounds.1]

theorem div_tenTo_near {x : Float} {r q : ℚ} (off : IsOff r (value x) q) (positive : 0 < q)
    (part : 0 ≤ r) (small : r ≤ 1 / 8) (x_pos : isPositive x = true) (bound : m ≤ 308)
    (good : isPositive (x / tenTo m) = true) :
    |value (x / tenTo m) - q / 10 ^ m| ≤ (r + 4 / 2 ^ 53) * (q / 10 ^ m) + underflow := by
  have power : (0 : ℚ) < 10 ^ m := by positivity
  have quotient := off.div (isOff_tenTo bound) positive power part (by norm_num) (by linarith)
  have nearest := isNearest_div_of_isPositive x_pos (isPositive_tenTo bound)
  have factor : r + 2 * (1 / 2 ^ 53) + (1 + (r + 2 * (1 / 2 ^ 53))) / 2 ^ 53 ≤ r + 4 / 2 ^ 53 := by
    linarith
  have size : 0 ≤ q / 10 ^ m := by positivity
  exact (quotient.rounded nearest good).trans
    (add_le_add (mul_le_mul_of_nonneg_right factor size) le_rfl)

/-- Half the least positive double is no more than three places of the least first quotient. -/
theorem underflow_le (positive : 0 < n) : underflow ≤ 3 / 2 ^ 53 * (n / 10 ^ 308) := by
  have least : (1 : ℚ) ≤ n := by exact_mod_cast positive
  have room : 2 ^ 53 * 10 ^ 308 ≤ 3 * (2 * 2 ^ 1074) := by decide +kernel
  have room' : (2 ^ 53 * 10 ^ 308 : ℚ) ≤ 3 * (2 * 2 ^ 1074) := by exact_mod_cast room
  have power : (0 : ℚ) < 2 ^ 1074 := by positivity
  have power' : (0 : ℚ) < 10 ^ 308 := by positivity
  rw [underflow, zpow_neg, zpow_ofNat]
  generalize (10 : ℚ) ^ 308 = p at *
  generalize (2 : ℚ) ^ 1074 = w at *
  calc 1 / 2 * w⁻¹ = 1 / (2 * w) := by field_simp
    _ ≤ 3 / (2 ^ 53 * p) := by
      rw [div_le_div_iff₀ (by positivity) (by positivity)]
      linarith
    _ = 3 / 2 ^ 53 * (1 / p) := by field_simp
    _ ≤ 3 / 2 ^ 53 * (n / p) := by gcongr

/-- The first of two quotients may be subnormal, but is off by a few places like any other. -/
theorem isOff_div_tenTo (positive : 0 < n) (few : n < 10 ^ 18) :
    IsOff (8 / 2 ^ 53) (value (n.toUInt64.toFloat / tenTo 308)) (n / 10 ^ 308) := by
  have n_pos : (0 : ℚ) < n := by exact_mod_cast positive
  have error := div_tenTo_near (isOff_toFloat positive few) n_pos (by norm_num) (by norm_num)
    (isPositive_toFloat positive few) le_rfl (isPositive_div_tenTo positive few le_rfl)
  have least := underflow_le positive
  unfold IsOff
  generalize (n / 10 ^ 308 : ℚ) = q at *
  linarith

theorem scale?_near (positive : 0 < n) (few : n < 10 ^ 18) (inside : WellInside (n * 10 ^ k)) :
    ∃ y, scale? n k = some y ∧ isPositive y = true ∧
      |value y - n * 10 ^ k| ≤ 12 / 2 ^ 53 * (n * 10 ^ k) + underflow := by
  obtain ⟨y, read, good, m, bound, ways⟩ := scale?_cases positive few inside
  refine ⟨y, read, good, ?_⟩
  have n_pos : (0 : ℚ) < n := by exact_mod_cast positive
  have power : (0 : ℚ) < 10 ^ m := by positivity
  have digits := isOff_toFloat positive few
  have digits_pos := isPositive_toFloat positive few
  rcases ways with ⟨rfl, rfl⟩ | ⟨rfl, rfl⟩ | ⟨rfl, rfl⟩
  · have product := digits.mul (isOff_tenTo bound) n_pos.le power.le (by norm_num)
    have nearest := isNearest_mul_of_isPositive digits_pos (isPositive_tenTo bound)
    rw [zpow_natCast]
    refine (product.rounded nearest good).trans ?_
    gcongr
    norm_num
  · rw [zpow_neg, zpow_natCast, ← div_eq_mul_inv]
    refine (div_tenTo_near digits n_pos (by norm_num) (by norm_num) digits_pos bound good).trans ?_
    gcongr
    norm_num
  · have first := isOff_div_tenTo positive few
    have first_pos := isPositive_div_tenTo positive few (le_refl 308)
    have split : (n * 10 ^ (-(308 + m : ℕ) : ℤ) : ℚ) = n / 10 ^ 308 / 10 ^ m := by
      rw [zpow_neg, zpow_natCast, pow_add, div_div, div_eq_mul_inv]
    rw [split]
    refine (div_tenTo_near first (by positivity) (by norm_num) (by norm_num) first_pos bound
      good).trans ?_
    gcongr
    norm_num

end

/-! ### Doubles -/

def readingError (q : ℚ) : ℚ := |q| / 2 ^ 49 + 2 ^ (-1073 : ℤ)

section

variable {x : Float} {negative : Bool} {s : ℕ} {e : ℤ}

theorem shortest_near (canonical : Canonical s e) (positive : 0 < s) :
    |(shortest .even s e).value - s * 2 ^ e| ≤ 1 / 2 ^ 53 * (s * 2 ^ e : ℚ) + underflow := by
  obtain ⟨low, high⟩ := (within_shortest .even canonical positive).bounds
  have low' := (sub_half_le_lowEnd s e).trans low
  unfold highEnd at high
  have half : |(shortest .even s e).value - s * 2 ^ e| ≤ 1 / 2 * 2 ^ e := by
    refine abs_le.mpr ⟨?_, ?_⟩ <;> linarith
  refine half.trans ?_
  unfold underflow
  rcases canonical.normal with full | rfl
  · have full' : (2 : ℚ) ^ 52 ≤ s := by exact_mod_cast full
    have place : (1 / 2 * 2 ^ e : ℚ) ≤ 1 / 2 ^ 53 * (s * 2 ^ e) := by
      calc (1 / 2 * 2 ^ e : ℚ) = 1 / 2 ^ 53 * (2 ^ 52 * 2 ^ e) := by ring
        _ ≤ 1 / 2 ^ 53 * (s * 2 ^ e) := by gcongr
    exact le_add_of_le_of_nonneg place (by positivity)
  · exact le_add_of_nonneg_left (by positivity)

theorem underflow_eq : underflow = 1 / 4 * 2 ^ (-1073 : ℤ) := by
  have step : (2 : ℚ) ^ (-1073 : ℤ) = 2 ^ (-1074 : ℤ) * 2 := by
    rw [← zpow_add_one₀ two_ne_zero]
    rfl
  rw [underflow, step]
  ring

theorem value_neg {y : Float} {s' : ℕ} {e' : ℤ} (parts : Parts.ofFloat y = .finite false s' e') :
    value (-y) = -value y := by
  rw [value_eq_of_finite (ofFloat_neg parts), value_eq parts]
  rfl

def signed (negative : Bool) (s : ℕ) (e : ℤ) : ℚ := if negative then -(s * 2 ^ e) else s * 2 ^ e

theorem abs_signed : |signed negative s e| = s * 2 ^ e := by
  have size : (0 : ℚ) ≤ s * 2 ^ e := by positivity
  cases negative with
  | false => exact abs_of_nonneg size
  | true => exact (abs_neg _).trans (abs_of_nonneg size)

theorem abs_signed_sub_signed {s' : ℕ} :
    |signed negative s' e - signed negative s e| = |(s' : ℚ) - s| * 2 ^ e := by
  have grid : (0 : ℚ) ≤ 2 ^ e := by positivity
  cases negative with
  | false =>
    change |(s' * 2 ^ e - s * 2 ^ e : ℚ)| = _
    rw [← sub_mul, abs_mul, abs_of_nonneg grid]
  | true =>
    change |(-(s' * 2 ^ e) - -(s * 2 ^ e) : ℚ)| = _
    rw [neg_sub_neg, ← sub_mul, abs_mul, abs_of_nonneg grid, abs_sub_comm]

def IsReadNear (negative : Bool) (s : ℕ) (e : ℤ) : Prop :=
  ∃ y, float? (.number (signedText negative (sizeText s e))) = some y ∧
    |value y - signed negative s e| ≤ readingError (signed negative s e)

theorem isReadNear_of_inside (canonical : Canonical s e) (upper : e ≤ 971) (positive : 0 < s)
    (inside : WellInside (shortest .even s e).value) : IsReadNear negative s e := by
  obtain ⟨l, -, stands, scaled⟩ := exists_float?_signedText negative canonical upper
  rw [if_neg positive.ne'] at stands
  obtain ⟨y, read, good, near⟩ := scale?_near (stands.coefficient_pos inside.pos) stands.digits
    (stands.value ▸ inside)
  rw [stands.value] at near
  have size : (0 : ℚ) ≤ s * 2 ^ e := by positivity
  have error : |value y - s * 2 ^ e| ≤ readingError (s * 2 ^ e) := by
    have near' := shortest_near canonical positive
    have high := (abs_le.mp near').2
    have both := abs_sub_le (value y) (shortest .even s e).value (s * 2 ^ e)
    have grid : (0 : ℚ) < 2 ^ (-1073 : ℤ) := by positivity
    rw [readingError, abs_of_nonneg size]
    rw [underflow_eq] at near near' high
    linarith
  rw [read, Option.map_some] at scaled
  obtain ⟨s', e', parts, -⟩ := Number.isPositive_iff.mp good
  refine ⟨_, scaled, ?_⟩
  cases negative with
  | false => exact error
  | true =>
    simp only [signed, readingError, abs_neg, if_true, value_neg parts, neg_sub_neg] at error ⊢
    rwa [abs_sub_comm]

theorem isReadNear_of_extreme (extreme : (s, e) ∈ extremes) : IsReadNear negative s e := by
  obtain ⟨y, read, parts⟩ := exists_parts_of_extreme negative extreme
  refine ⟨y, read, ?_⟩
  rw [value_eq_of_finite parts]
  change |signed negative _ e - signed negative s e| ≤ _
  rw [abs_signed_sub_signed, readingError, abs_signed]
  split
  · next last =>
    refine le_add_of_le_of_nonneg ?_ (by positivity)
    have grid : (0 : ℚ) < 2 ^ e := by positivity
    rw [last]
    norm_num
    linarith
  · rw [sub_self, abs_zero, zero_mul]
    positivity

/-- A finite double is read back as a finite double within a few places of it. -/
theorem exists_float?_near (finite : x.isFinite = true) :
    ∃ y, float? (ofFloat x) = some y ∧ y.isFinite = true ∧
      |value y - value x| ≤ readingError (value x) := by
  obtain ⟨y, read, finite', -⟩ := exists_float?_of_finite finite
  obtain ⟨negative, s, e, parts⟩ := Number.isFinite_iff.mp finite
  have canonical := canonical_of_finite parts
  have upper := exponent_le_of_finite parts
  suffices IsReadNear negative s e by
    obtain ⟨y', read', near⟩ := this
    rw [ofFloat_of_finite parts, read'] at read
    cases read
    refine ⟨y, by rw [ofFloat_of_finite parts, read'], finite', ?_⟩
    rw [value_eq_of_finite parts]
    exact near
  rcases extreme_or_wellInside canonical upper with extreme | ⟨positive, inside⟩
  · exact isReadNear_of_extreme extreme
  · exact isReadNear_of_inside canonical upper positive inside

/-! ### Short literals -/

def IsWrittenShort (x : Float) : Prop :=
  ∃ cs l, ofFloat x = .number cs ∧ parts? cs = some l ∧ l.IsShort

theorem eq_of_parts_eq {y : Float} (hx : Parts.ofFloat x = .finite negative s e)
    (hy : Parts.ofFloat y = .finite negative s e) : x = y := by
  obtain ⟨-, -, bits⟩ := ofBits_eq_finite_iff.mp hx
  obtain ⟨-, -, bits'⟩ := ofBits_eq_finite_iff.mp hy
  exact eq_of_toNat_toBits_eq (bits.trans bits'.symm)

theorem parts_of_isNearest_shortest (tie : Tie) {y : Float} (canonical : Canonical s e)
    (upper : e ≤ 971)
    (nearest : IsNearest y false (if s = 0 then 0 else (shortest tie s e).value)) :
    Parts.ofFloat y = .finite false s e := by
  obtain ⟨s', e', rounds, same⟩ : ∃ s' e',
      RoundsTo (if s = 0 then 0 else (shortest tie s e).value) s' e' ∧
        bitsOf s' e' = bitsOf s e := by
    by_cases zero : s = 0
    · have least : e = -1074 := canonical.normal.resolve_left (by omega)
      rw [if_pos zero, zero, least]
      exact ⟨0, -1074, roundsTo_zero, rfl⟩
    · rw [if_neg zero]
      exact roundsTo_of_within canonical (within_shortest tie canonical (Nat.pos_of_ne_zero zero))
  obtain ⟨s₁, e₁, rounds₁, bits⟩ := nearest
  rw [rounds₁.bitsOf_eq rounds, same, min_eq_left (bitsOf_lt_infinityBits canonical upper).le]
    at bits
  exact ofBits_eq_finite_iff.mpr ⟨canonical, upper, bits⟩

/-- A double that is written as a short literal is read back as it was. -/
theorem float?_of_isWrittenShort (h : IsWrittenShort x) : float? (ofFloat x) = some x := by
  obtain ⟨cs, l, written, parsed, short⟩ := h
  have finite : x.isFinite = true := by
    by_contra infinite
    rw [ofFloat_of_not_finite infinite] at written
    cases written
  obtain ⟨y, read, -⟩ := exists_float?_of_finite finite
  obtain ⟨negative, s, e, parts⟩ := Number.isFinite_iff.mp finite
  have canonical := canonical_of_finite parts
  have upper := exponent_le_of_finite parts
  rw [ofFloat_of_finite parts] at read written ⊢
  cases written
  obtain ⟨l', parsed', stands, scaled⟩ := exists_float?_signedText negative canonical upper
  rw [parsed] at parsed'
  cases parsed'
  rw [read] at scaled
  obtain ⟨z, size, rfl⟩ := Option.map_eq_some_iff.mp scaled.symm
  have nearest := isNearest_nearestDecimal l.coefficient l.scale
  rw [← scale?_eq short.digits short.power size, stands.value] at nearest
  have parts' := parts_of_isNearest_shortest .even canonical upper nearest
  rw [read]
  congr 1
  cases negative with
  | false => exact eq_of_parts_eq parts' parts
  | true => exact eq_of_parts_eq (ofFloat_neg parts') parts

end

end FermiQuiz.Json
