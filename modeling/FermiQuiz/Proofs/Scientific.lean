import Mathlib
import FermiQuiz.Proofs.Gap
import FermiQuiz.Proofs.Number.Fixed
import FermiQuiz.Proofs.Playable

/-!
# Scientific notation

A positive double is written with a base that is the double over its power of ten, up to twenty
roundings. So with up to fourteen digits the base is between 1 and 10 as written, and with more it
need not be. Below `10 ^ -308` the power of ten is zero and the base is infinite.
-/

namespace FermiQuiz

open Number

/-! ### Powers of ten -/

/-- Whether neither of two quotients exceeds the other by more than one part in `2 ^ 48`. -/
def areNear (a b c d : ℕ) : Bool :=
  2 ^ 48 * (a * d) ≤ (2 ^ 48 + 1) * (c * b) && 2 ^ 48 * (c * b) ≤ (2 ^ 48 + 1) * (a * d)

theorem div_le_mul_slack {a b c d : ℕ} (hb : 0 < b) (hd : 0 < d)
    (near : 2 ^ 48 * (a * d) ≤ (2 ^ 48 + 1) * (c * b)) : (a / b : ℚ) ≤ c / d * slack ^ 16 := by
  have b_pos : (0 : ℚ) < b := by exact_mod_cast hb
  have d_pos : (0 : ℚ) < d := by exact_mod_cast hd
  have near' : (2 ^ 48 * (a * d) : ℚ) ≤ (2 ^ 48 + 1) * (c * b) := by exact_mod_cast near
  have many : (1 + 1 / 2 ^ 48 : ℚ) ≤ slack ^ 16 := by
    refine le_trans (by norm_num) (one_add_mul_le_pow (by norm_num : (-2 : ℚ) ≤ 1 / 2 ^ 52) 16)
  refine le_trans ?_ (mul_le_mul_of_nonneg_left many (by positivity))
  rw [div_mul_eq_mul_div, div_le_div_iff₀ b_pos d_pos]
  linarith

/-- Whether a double is near a quotient. -/
def isNear (x : Float) (num den : ℕ) : Bool :=
  match Parts.ofFloat x with
  | .finite false s e => areNear (numerator s e) (denominator e) num den
  | _ => false

theorem isClose_of_isNear {x : Float} {num den : ℕ} (positive : 0 < den)
    (h : isNear x num den = true) : IsClose 16 x (num / den) := by
  unfold isNear at h
  split at h
  · next s e parts =>
    obtain ⟨upper, lower⟩ := Bool.and_eq_true_iff.mp h
    refine ⟨⟨s, e, parts⟩, ?_, ?_⟩
    · rw [value_eq parts, ← numerator_div_denominator]
      exact div_le_mul_slack positive (denominator_pos e) (of_decide_eq_true lower)
    · rw [value_eq parts, ← numerator_div_denominator]
      exact div_le_mul_slack (denominator_pos e) positive (of_decide_eq_true upper)
  · cases h

/-- The exponents near the ends of the range, where doubling a power may leave it. -/
def farExponents : List ℤ :=
  [-308, -307, -306, -305, -304, -303, -302, 302, 303, 304, 305, 306, 307, 308]

theorem isNear_powerOfTen : ∀ k ∈ farExponents,
    isNear (powerOfTen k) (10 ^ k.toNat) (10 ^ (-k).toNat) = true := by
  decide +kernel

theorem isClose_powerOfTen_of_le {k : ℤ} (small : k.natAbs ≤ 308) :
    IsClose 19 (powerOfTen k) (10 ^ k) := by
  have positive : (0 : ℚ) < 10 ^ k := by positivity
  rcases Nat.lt_or_ge 301 k.natAbs with far | near
  · have listed : k ∈ farExponents := by
      simp only [farExponents, List.mem_cons, List.not_mem_nil]
      omega
    have close := isClose_of_isNear (by positivity) (isNear_powerOfTen k listed)
    push_cast at close
    rw [pow_toNat (by norm_num) k, mul_div_cancel_right₀ _ (by positivity)] at close
    exact close.mono positive (by norm_num)
  · exact (isClose_powerOfTen near).mono positive (by omega)

theorem powerOfTen_eq_zero : ∀ n ∈ List.range 16, powerOfTen (-309 - n) = 0.0 := by
  decide +kernel

/-! ### The range of orders of magnitude -/

section

variable {x : Float} {m : ℤ}

theorem le_magnitude_iff_exists {s : ℕ} {e : ℤ} (h : magnitude x = .ok m)
    (parts : Parts.ofFloat x = .finite false s e) (k : ℤ) :
    k ≤ m ↔ ∃ s' e', RoundsTo (10 ^ k) s' e' ∧ bitsOf s' e' ≤ bitsOf s e := by
  rw [le_magnitude_iff h, nearestDecimal_le_iff parts, Nat.cast_one, one_mul]

theorem overflow_lt_ten_zpow : overflow < (10 : ℚ) ^ (309 : ℤ) := by
  have room : 2 ^ (53 + 971) < 10 ^ 309 := by decide +kernel
  have room' : (2 ^ (53 + 971) : ℚ) < 10 ^ 309 := by exact_mod_cast room
  calc overflow < 2 ^ 53 * 2 ^ (971 : ℤ) := by unfold overflow; gcongr; norm_num
    _ = 2 ^ (53 + 971) := by rw [zpow_ofNat, ← pow_add]
    _ < 10 ^ 309 := room'

theorem magnitude_le (h : magnitude x = .ok m) : m ≤ 308 := by
  obtain ⟨s, e, parts, -⟩ := magnitude_eq_ok_iff.mp h
  by_contra! beyond
  obtain ⟨s', e', rounds, le⟩ := (le_magnitude_iff_exists h parts 309).mp beyond
  have finite := bitsOf_lt_infinityBits (canonical_of_finite parts) (exponent_le_of_finite parts)
  have small := (bitsOf_lt_infinityBits_iff rounds).mp (le.trans_lt finite)
  exact absurd overflow_lt_ten_zpow small.not_gt

theorem le_magnitude (h : magnitude x = .ok m) : -324 ≤ m := by
  obtain ⟨s, e, parts, -⟩ := magnitude_eq_ok_iff.mp h
  obtain ⟨s', e', rounds⟩ := exists_roundsTo 1 (-324)
  rw [Nat.cast_one, one_mul] at rounds
  have room : 2 * 2 ^ 1074 ≤ 10 ^ 324 := by decide +kernel
  have room' : (2 * 2 ^ 1074 : ℚ) ≤ 10 ^ 324 := by exact_mod_cast room
  have small : (10 : ℚ) ^ (-324 : ℤ) ≤ underflow := by
    rw [underflow, zpow_neg, zpow_neg, one_div, ← mul_inv]
    exact inv_anti₀ (by positivity) room'
  have zero : bitsOf s' e' = 0 :=
    Nat.eq_zero_of_not_pos fun positive => absurd ((bitsOf_pos_iff rounds).mp positive) small.not_gt
  exact (le_magnitude_iff_exists h parts (-324)).mpr ⟨s', e', rounds, by omega⟩

theorem value_lt_ten_zpow (h : magnitude x = .ok m) (lower : -308 ≤ m) :
    value x < 10 ^ (m + 1) * (1 + 1 / 2 ^ 53) := by
  obtain ⟨s, e, parts, -⟩ := magnitude_eq_ok_iff.mp h
  rcases (magnitude_le h).lt_or_eq with less | rfl
  · exact value_lt_power_of_magnitude_lt h (by omega) (by omega) (lt_add_one m)
  · have finite := bitsOf_lt_infinityBits (canonical_of_finite parts) (exponent_le_of_finite parts)
    have small := (bitsOf_lt_infinityBits_iff (canonical_of_finite parts).roundsTo).mp finite
    rw [← value_eq parts] at small
    refine (small.trans overflow_lt_ten_zpow).trans_le ?_
    exact le_mul_of_one_le_right (by positivity) (by norm_num)

theorem ten_zpow_le_value (h : magnitude x = .ok m) (lower : -308 ≤ m) :
    10 ^ m * (1 - 1 / 2 ^ 50) ≤ value x := by
  obtain ⟨s, e, parts, -⟩ := magnitude_eq_ok_iff.mp h
  have nearest := isNearest_nearestDecimal 1 m
  rw [Nat.cast_one, one_mul] at nearest
  obtain ⟨s', e', parts', error⟩ := nearest.exists_parts_error (by positivity)
    (ten_zpow_lt_overflow (magnitude_le h))
  have reached := (le_iff_value_le parts' parts).mp ((le_magnitude_iff h m).mp le_rfl)
  have room : 2 ^ 51 * 10 ^ 308 ≤ 2 * 2 ^ 1074 := by decide +kernel
  have room' : (2 ^ 51 * 10 ^ 308 : ℚ) ≤ 2 * 2 ^ 1074 := by exact_mod_cast room
  have least : underflow ≤ 10 ^ m / 2 ^ 51 := by
    calc underflow = (2 * 2 ^ 1074 : ℚ)⁻¹ := by
          rw [underflow, one_div, mul_inv, zpow_neg]
          rfl
      _ ≤ (2 ^ 51 * 10 ^ 308)⁻¹ := inv_anti₀ (by positivity) room'
      _ = 10 ^ (-308 : ℤ) / 2 ^ 51 := by
          rw [mul_inv, mul_comm, zpow_neg, div_eq_mul_inv]
          rfl
      _ ≤ 10 ^ m / 2 ^ 51 := by
          gcongr
          norm_num
  rw [← value_eq parts'] at error
  have near := neg_le_of_abs_le error
  have positive : (0 : ℚ) < 10 ^ m := by positivity
  linarith

end

/-! ### The base -/

/-- Half a unit of the thirteenth decimal. -/
def margin : ℚ := 1 / (2 * 10 ^ 13)

section

variable {x : Float} {m : ℤ} (h : magnitude x = .ok m) (lower : -308 ≤ m)

include h lower

theorem value_div_ten_zpow_bounds :
    1 - 1 / 2 ^ 50 ≤ value x / 10 ^ m ∧ value x / 10 ^ m ≤ 10 * (1 + 1 / 2 ^ 53) := by
  have power : (0 : ℚ) < 10 ^ m := by positivity
  have above := ten_zpow_le_value h lower
  have below := value_lt_ten_zpow h lower
  rw [zpow_add₀ (by norm_num), zpow_one] at below
  constructor
  · rw [le_div_iff₀ power]
    linarith
  · rw [div_le_iff₀ power]
    linarith

/-- The base is the double over its power of ten, up to twenty roundings. -/
theorem isClose_base : IsClose 20 (x / powerOfTen m) (value x / 10 ^ m) := by
  obtain ⟨above, below⟩ := value_div_ten_zpow_bounds h lower
  have positive := exists_magnitude_iff.mp ⟨m, h⟩
  obtain ⟨s, e, parts, -⟩ := isPositive_iff.mp positive
  have power := isClose_powerOfTen_of_le (k := m) (by have := magnitude_le h; omega)
  have moderate : Moderate (value x / 10 ^ m) := by
    have small : (2 : ℚ) ^ (-1020 : ℤ) ≤ 2 ^ (-1 : ℤ) :=
      zpow_le_zpow_right₀ one_le_two (by norm_num)
    have large : (2 : ℚ) ^ (4 : ℤ) ≤ 2 ^ (1020 : ℤ) :=
      zpow_le_zpow_right₀ one_le_two (by norm_num)
    exact ⟨small.trans (le_trans (by norm_num) above), (below.trans (by norm_num)).trans large⟩
  have quotient := (isClose_self parts).div power (value_pos positive) (by positivity)
    (by norm_num) moderate
  rwa [zero_add] at quotient

theorem exists_parts_base : ∃ s e, Parts.ofFloat (x / powerOfTen m) = .finite false s e ∧
    |value (x / powerOfTen m) - value x / 10 ^ m| ≤ margin ∧
    1 - margin < value (x / powerOfTen m) ∧ value (x / powerOfTen m) < 10 + margin := by
  obtain ⟨above, below⟩ := value_div_ten_zpow_bounds h lower
  obtain ⟨⟨s, e, parts⟩, least, most⟩ := isClose_base h lower
  generalize value x / 10 ^ m = y at above below least most
  generalize value (x / powerOfTen m) = b at least most
  have factor : slack ^ 20 ≤ 1 + 445 / 10 ^ 17 := by norm_num [slack]
  have y_pos : 0 ≤ y := le_trans (by norm_num) above
  have most' : b ≤ y * (1 + 445 / 10 ^ 17) := most.trans (by gcongr)
  have b_pos : 0 ≤ b := nonneg_of_mul_nonneg_left (y_pos.trans least) (pow_pos slack_pos 20)
  have least' : y ≤ b * (1 + 445 / 10 ^ 17) := least.trans (by gcongr)
  refine ⟨s, e, parts, ?_⟩
  unfold margin
  rw [abs_le]
  norm_num at above below least' most' ⊢
  refine ⟨⟨?_, ?_⟩, ?_, ?_⟩ <;> linarith

end

/-! ### The digit -/

theorem abs_roundUp_sub_le (num : ℕ) {den : ℕ} (positive : 0 < den) :
    |(roundUp num den : ℚ) - num / den| ≤ 1 / 2 := by
  have lower : (roundUp num den - 1 / 2 : ℚ) ≤ num / den := (le_roundUp_iff positive).mp le_rfl
  have upper : ¬ ((roundUp num den + 1 : ℕ) - 1 / 2 : ℚ) ≤ num / den :=
    (le_roundUp_iff positive).not.mp (by omega)
  push_cast at upper
  rw [abs_le]
  constructor <;> linarith

theorem exists_roundWithin {x : Float} {s : ℕ} {e : ℤ} {hi : ℕ}
    (parts : Parts.ofFloat x = .finite false s e) (small : value x < hi) :
    ∃ n : ℕ, roundWithin 0 hi x = n ∧ |(n : ℚ) - value x| ≤ 1 / 2 := by
  have near := abs_roundUp_sub_le (numerator s e) (denominator_pos e)
  rw [numerator_div_denominator, ← value_eq parts] at near
  have below : roundUp (numerator s e) (denominator e) ≤ hi := by
    have : (roundUp (numerator s e) (denominator e) : ℚ) < hi + 1 := by
      linarith [(abs_le.mp near).2]
    exact Nat.lt_add_one_iff.mp (by exact_mod_cast this)
  refine ⟨_, ?_, near⟩
  rw [roundWithin, parts]
  simp only [Bool.false_eq_true, if_false]
  omega

/-! ### What is written -/

/-- The notation writes the number `y` with so many decimals of its base, the number of which is
`v`. -/
structure Scientific.Writes (s : Scientific) (places : ℕ) (y v : ℚ) : Prop where
  digit_pos : 1 ≤ s.digit
  digit_le : s.digit ≤ 10
  digit_near : |(s.digit : ℚ) - y| ≤ 1 / 2 + margin
  base_fixed : IsFixed places s.base.toList v
  base_near : |v - y| ≤ 1 / 2 / 10 ^ places + margin

theorem base_between {n places : ℕ} {b : ℚ} (few : places ≤ 13)
    (rounded : IsRoundEven n (b * 10 ^ places)) (above : 1 - margin < b) (below : b < 10 + margin) :
    1 ≤ (n / 10 ^ places : ℚ) ∧ (n / 10 ^ places : ℚ) ≤ 10 := by
  have unit : (0 : ℚ) < 10 ^ places := by positivity
  have coarse : margin * 10 ^ places ≤ 1 / 2 := by
    calc margin * 10 ^ places ≤ margin * 10 ^ 13 := by
          unfold margin
          gcongr
          norm_num
      _ = 1 / 2 := by norm_num [margin]
  have least := rounded.le_add
  have most := rounded.sub_le
  have above' := mul_lt_mul_of_pos_right above unit
  have below' := mul_lt_mul_of_pos_right below unit
  have lower : 10 ^ places < n + 1 := by
    have : (10 ^ places : ℚ) < n + 1 := by linarith
    exact_mod_cast this
  have upper : n < 10 * 10 ^ places + 1 := by
    have : (n : ℚ) < 10 * 10 ^ places + 1 := by linarith
    exact_mod_cast this
  rw [le_div_iff₀ unit, div_le_iff₀ unit, one_mul]
  exact ⟨by exact_mod_cast Nat.lt_add_one_iff.mp lower,
    by exact_mod_cast Nat.lt_add_one_iff.mp upper⟩

theorem abs_div_pow_sub_le {n places : ℕ} {b : ℚ} (rounded : IsRoundEven n (b * 10 ^ places)) :
    |(n / 10 ^ places : ℚ) - b| ≤ 1 / 2 / 10 ^ places := by
  have unit : (0 : ℚ) < 10 ^ places := by positivity
  have least := rounded.le_add
  have most := rounded.sub_le
  rw [le_div_iff₀ unit, ← abs_of_pos unit, ← abs_mul, abs_of_pos unit, sub_mul,
    div_mul_cancel₀ _ unit.ne', abs_le]
  constructor <;> linarith

section

variable {x : Float} {m : ℤ} (precision : ℕ)

theorem exists_writes (h : magnitude x = .ok m) (lower : -308 ≤ m) :
    ∃ s v, scientific x precision = .ok s ∧ s.magnitude = m ∧
      s.Writes (max precision 1 - 1) (value x / 10 ^ m) v ∧ (precision ≤ 14 → 1 ≤ v ∧ v ≤ 10) := by
  obtain ⟨t, e, parts, near, above, below⟩ := exists_parts_base h lower
  have half : margin < 1 / 2 := by norm_num [margin]
  have fits : value (x / powerOfTen m) < (4294967295 : ℕ) := below.trans (by norm_num [margin])
  obtain ⟨digit, rounded, digit_near⟩ := exists_roundWithin parts fits
  obtain ⟨n, fixed, base_rounded⟩ := exists_isFixed_fixedText parts (max precision 1 - 1)
  have same : (roundWithin 0 4294967295 (x / powerOfTen m)).toNat = digit := by
    rw [← Int.toNat_natCast digit, ← rounded]
    rfl
  obtain ⟨least, most⟩ := abs_le.mp digit_near
  refine ⟨_, _, scientific_of_magnitude h precision, rfl, ⟨?_, ?_, ?_, fixed, ?_⟩, fun few => ?_⟩
  · have : (0 : ℚ) < digit := by linarith
    rw [same]
    exact_mod_cast this
  · have : (digit : ℚ) < 11 := by linarith
    rw [same]
    exact Nat.lt_succ_iff.mp (by exact_mod_cast this)
  · rw [same]
    exact (abs_sub_le _ _ _).trans (add_le_add digit_near near)
  · exact (abs_sub_le _ _ _).trans (add_le_add (abs_div_pow_sub_le base_rounded) near)
  · exact base_between (by omega) base_rounded above below

/-- Below `10 ^ -308` the power of ten is zero, and nothing is left of the base. -/
theorem exists_infinite_base (h : magnitude x = .ok m) (small : m < -308) :
    ∃ s, scientific x precision = .ok s ∧ s.magnitude = m ∧ s.digit = 4294967295 ∧
      s.base = "inf" := by
  have least := le_magnitude h
  have zero := powerOfTen_eq_zero (-309 - m).toNat (List.mem_range.mpr (by omega))
  rw [show -309 - ((-309 - m).toNat : ℤ) = m by omega] at zero
  have infinite : Parts.ofFloat (x / powerOfTen m) = .infinite false := by
    rw [zero]
    exact ofFloat_div_zero (exists_magnitude_iff.mp ⟨m, h⟩)
  refine ⟨_, scientific_of_magnitude h precision, rfl, ?_, ?_⟩
  · rw [roundWithin, infinite]
    rfl
  · rw [fixedText, signed, infinite]
    rfl

end

theorem magnitude_of_between {x : Float} {k : ℤ} (positive : isPositive x = true)
    (reached : nearestDecimal 1 k ≤ x) (missed : ¬ nearestDecimal 1 (k + 1) ≤ x) :
    magnitude x = .ok k := by
  obtain ⟨m, known⟩ := exists_magnitude_iff.mpr positive
  have lower := (le_magnitude_iff known k).mpr reached
  have upper := (le_magnitude_iff known (k + 1)).not.mpr missed
  rw [known, show m = k by omega]

/-- From the fourteenth decimal on a base may be written above 10. -/
theorem exists_base_above_ten {precision : ℕ} (many : 15 ≤ precision) :
    ∃ s v, scientific 9.999999999999999e-306 precision = .ok s ∧
      IsFixed (max precision 1 - 1) s.base.toList v ∧ 10 < v := by
  have positive : isPositive 9.999999999999999e-306 = true := by decide +kernel
  have known : magnitude 9.999999999999999e-306 = .ok (-306) :=
    magnitude_of_between positive (by decide +kernel) (by decide +kernel)
  have parts : Parts.ofFloat (9.999999999999999e-306 / powerOfTen (-306)) =
      .finite false 5629499534213123 (-49) := by
    decide +kernel
  generalize (9.999999999999999e-306 : Float) = x at known parts ⊢
  obtain ⟨n, fixed, rounded⟩ := exists_isFixed_fixedText parts (max precision 1 - 1)
  have unit : (10 : ℚ) ^ 14 ≤ 10 ^ (max precision 1 - 1) :=
    pow_le_pow_right₀ (by norm_num) (by omega)
  have least := rounded.le_add
  rw [value_eq parts] at least
  refine ⟨_, _, scientific_of_magnitude known precision, fixed, ?_⟩
  rw [lt_div_iff₀ (by positivity)]
  norm_num at least unit ⊢
  linarith

theorem nearestDecimal_one_neg : nearestDecimal 1 (-308) = 1e-308 := by decide +kernel

/-- From `1e-308` on every positive double is written with a digit between 1 and 10, and a base with
one decimal fewer than the precision asks for. Up to a precision of 14 the base is between 1 and 10;
with every greater precision some base is above. Below `1e-308` the base is infinite. -/
theorem scientific_of_isPositive (precision : ℕ) :
    (∀ x, isPositive x = true → 1e-308 ≤ x →
      ∃ s v, scientific x precision = .ok s ∧ magnitude x = .ok s.magnitude ∧
        s.Writes (max precision 1 - 1) (value x / 10 ^ s.magnitude) v ∧
        (precision ≤ 14 → 1 ≤ v ∧ v ≤ 10)) ∧
    (∀ x, isPositive x = true → x < 1e-308 →
      ∃ s, scientific x precision = .ok s ∧ magnitude x = .ok s.magnitude ∧
        s.digit = 4294967295 ∧ s.base = "inf") ∧
    (15 ≤ precision → ∃ x s v, isPositive x = true ∧ 1e-308 ≤ x ∧ scientific x precision = .ok s ∧
      IsFixed (max precision 1 - 1) s.base.toList v ∧ 10 < v) := by
  refine ⟨fun x positive large => ?_, fun x positive small => ?_, fun many => ?_⟩
  · obtain ⟨m, known⟩ := exists_magnitude_iff.mpr positive
    rw [← nearestDecimal_one_neg, ← le_magnitude_iff known] at large
    obtain ⟨s, v, written, rfl, writes, between⟩ := exists_writes precision known large
    exact ⟨s, v, written, known, writes, between⟩
  · obtain ⟨m, known⟩ := exists_magnitude_iff.mpr positive
    obtain ⟨t, e, parts, -⟩ := isPositive_iff.mp positive
    obtain ⟨t', e', parts', -⟩ := isPositive_iff.mp (by decide +kernel : isPositive 1e-308 = true)
    rw [lt_iff_value_lt parts parts', ← not_le, ← le_iff_value_le parts' parts,
      ← nearestDecimal_one_neg, ← le_magnitude_iff known, not_le] at small
    obtain ⟨s, written, rfl, digit, base⟩ := exists_infinite_base precision known small
    exact ⟨s, written, known, digit, base⟩
  · have positive : isPositive 9.999999999999999e-306 = true := by decide +kernel
    have large : (1e-308 : Float) ≤ 9.999999999999999e-306 := by decide +kernel
    obtain ⟨s, v, written, fixed, above⟩ := exists_base_above_ten many
    exact ⟨_, s, v, positive, large, written, fixed, above⟩

theorem scientific_of_tiny :
    (isPositive 1330000 = true ∧ (1e-308 : Float) ≤ 1330000 ∧ 3 ≤ 14 ∧
      ∃ s v, scientific 1330000 3 = .ok s ∧ IsFixed 2 s.base.toList v ∧ 1 ≤ v ∧ v ≤ 10) ∧
    (isPositive 1e-310 = true ∧ (1e-310 : Float) < 1e-308 ∧
      ∃ s, scientific 1e-310 3 = .ok s ∧ s.digit = 4294967295 ∧ s.base = "inf") ∧
    15 ≤ 15 ∧ ∃ x s v, isPositive x = true ∧ scientific x 15 = .ok s ∧
      IsFixed 14 s.base.toList v ∧ 10 < v := by
  have large : isPositive 1330000 = true ∧ (1e-308 : Float) ≤ 1330000 := by decide +kernel
  have small : isPositive 1e-310 = true ∧ (1e-310 : Float) < 1e-308 := by decide +kernel
  obtain ⟨usual, infinite, -⟩ := scientific_of_isPositive 3
  obtain ⟨s, v, written, -, writes, between⟩ := usual 1330000 large.1 large.2
  obtain ⟨s', written', -, digit, base⟩ := infinite 1e-310 small.1 small.2
  obtain ⟨x, s'', v'', positive, -, written'', fixed, above⟩ :=
    (scientific_of_isPositive 15).2.2 le_rfl
  exact ⟨⟨large.1, large.2, by norm_num, s, v, written, writes.base_fixed, between (by norm_num)⟩,
    ⟨small.1, small.2, s', written', digit, base⟩, le_rfl, x, s'', v'', positive, written'', fixed,
    above⟩

end FermiQuiz
