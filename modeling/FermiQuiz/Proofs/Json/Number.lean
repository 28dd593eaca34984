import Mathlib
import FermiQuiz.Proofs.Json.Digits
import FermiQuiz.Proofs.Number.Range

/-!
# Numbers that are read back

The number that is written for a finite double is read as a finite double, and as a positive one if
it was positive. It may be another one, for reading rounds twice or more, but rounding does not take
it out of the range: between most doubles and the ends of the range there is room enough, and the
few others are read one by one.
-/

namespace FermiQuiz.Json

open Number

/-! ### Operands -/

theorem two_zpow_le_one {e : ℤ} (negative : e ≤ 0) : (2 : ℚ) ^ e ≤ 1 :=
  zpow_le_one_of_nonpos₀ one_le_two negative

theorem exists_parts_tenTo_of_le {n : ℕ} (bound : n ≤ 308) :
    ∃ s e, Parts.ofFloat (tenTo n) = .finite false s e ∧
      |(s * 2 ^ e : ℚ) - 10 ^ n| ≤ 10 ^ n / 2 ^ 53 := by
  have rounded := isNearest_nearest (Nat.pow 10 n) one_pos
  rw [Nat.cast_one, div_one, Nat.pow_eq, Nat.cast_pow, Nat.cast_ofNat] at rounded
  refine rounded.exists_parts_of_lt ?_ (ten_pow_lt_overflow bound)
  exact (two_zpow_le_one (by norm_num)).trans (one_le_pow₀ (by norm_num))

theorem exists_parts_toFloat_of_lt {n : ℕ} (positive : 0 < n) (few : n < 10 ^ 18) :
    ∃ s e, Parts.ofFloat n.toUInt64.toFloat = .finite false s e ∧
      |(s * 2 ^ e : ℚ) - n| ≤ n / 2 ^ 53 := by
  have same : n.toUInt64.toNat = n := Nat.mod_eq_of_lt (few.trans (by norm_num))
  have rounded := isNearest_toFloat n.toUInt64
  rw [same] at rounded
  have least : (1 : ℚ) ≤ n := by exact_mod_cast positive
  have most : (n : ℚ) < 10 ^ 18 := by exact_mod_cast few
  refine rounded.exists_parts_of_lt ((two_zpow_le_one (by norm_num)).trans least) (most.trans ?_)
  exact ten_pow_lt_overflow (by norm_num)

theorem isPositive_toFloat {n : ℕ} (positive : 0 < n) (few : n < 10 ^ 18) :
    isPositive n.toUInt64.toFloat = true := by
  obtain ⟨s, e, parts, near⟩ := exists_parts_toFloat_of_lt positive few
  have least : (1 : ℚ) ≤ n := by exact_mod_cast positive
  refine isPositive_of_value_pos parts ?_
  rw [value_eq parts]
  linarith [(abs_le.mp near).1]

/-! ### Scaling -/

/-- A number with room to both ends of the range of the positive doubles. -/
structure WellInside (q : ℚ) : Prop where
  above : 3 / 2 * 2 ^ (-1074 : ℤ) ≤ q
  below : q ≤ (2 ^ 53 - 7 / 2) * 2 ^ (971 : ℤ)

section

variable {n : ℕ} {k : ℤ}

theorem isPositive_mul_tenTo (positive : 0 < n) (few : n < 10 ^ 18) {m : ℕ} (bound : m ≤ 308)
    (below : (n * 10 ^ m : ℚ) ≤ (2 ^ 53 - 7 / 2) * 2 ^ (971 : ℤ)) :
    isPositive (n.toUInt64.toFloat * tenTo m) = true := by
  obtain ⟨s, e, parts, near⟩ := exists_parts_toFloat_of_lt positive few
  obtain ⟨s', e', parts', near'⟩ := exists_parts_tenTo_of_le bound
  have product := isNearest_mul parts parts'
  rw [bne_self_eq_false] at product
  rw [product.isPositive_iff, overflow, underflow]
  have least : (1 : ℚ) ≤ n := by exact_mod_cast positive
  have least' : (1 : ℚ) ≤ 10 ^ m := one_le_pow₀ (by norm_num)
  have grid : (0 : ℚ) < 2 ^ (971 : ℤ) := by positivity
  have small : (2 : ℚ) ^ (-1074 : ℤ) ≤ 1 := two_zpow_le_one (by norm_num)
  generalize (s * 2 ^ e : ℚ) = x at near ⊢
  generalize (s' * 2 ^ e' : ℚ) = t at near' ⊢
  generalize (10 : ℚ) ^ m = p at *
  generalize (2 : ℚ) ^ (971 : ℤ) = w at *
  generalize (2 : ℚ) ^ (-1074 : ℤ) = v at *
  rw [abs_le] at near near'
  have x_ge : 7 / 8 ≤ x := by linarith
  have t_ge : 7 / 8 ≤ t := by linarith
  have x_le : x ≤ n * (1 + 1 / 2 ^ 53) := by linarith
  have t_le : t ≤ p * (1 + 1 / 2 ^ 53) := by linarith
  constructor
  · calc 1 / 2 * v ≤ 1 / 2 := by linarith
      _ < 7 / 8 * (7 / 8) := by norm_num
      _ ≤ x * t := by gcongr
  · calc x * t ≤ n * (1 + 1 / 2 ^ 53) * (p * (1 + 1 / 2 ^ 53)) := by gcongr
      _ = n * p * (1 + 1 / 2 ^ 53) ^ 2 := by ring
      _ ≤ (2 ^ 53 - 7 / 2) * w * (1 + 1 / 2 ^ 53) ^ 2 := by gcongr
      _ = ((2 ^ 53 - 7 / 2) * (1 + 1 / 2 ^ 53) ^ 2) * w := by ring
      _ < (2 ^ 53 - 1 / 2) * w := by gcongr; norm_num

theorem exists_isNearest_div_tenTo {x : Float} {s : ℕ} {e : ℤ} {m : ℕ}
    (parts : Parts.ofFloat x = .finite false s e) (bound : m ≤ 308) :
    ∃ q, IsNearest (x / tenTo m) false q ∧ 8 / 9 * (s * 2 ^ e / 10 ^ m) ≤ q ∧
      q ≤ 8 / 7 * (s * 2 ^ e / 10 ^ m) := by
  obtain ⟨s', e', parts', near⟩ := exists_parts_tenTo_of_le bound
  have power : (0 : ℚ) < 10 ^ m := by positivity
  rw [abs_le] at near
  have ge : 7 / 8 * 10 ^ m ≤ (s' * 2 ^ e' : ℚ) := by linarith
  have le : (s' * 2 ^ e' : ℚ) ≤ 9 / 8 * 10 ^ m := by linarith
  have nonzero : 0 < s' := by
    refine Nat.pos_of_ne_zero fun zero => ?_
    rw [zero, Nat.cast_zero, zero_mul] at ge
    linarith
  have quotient := isNearest_div parts parts' nonzero
  rw [bne_self_eq_false] at quotient
  refine ⟨_, quotient, ?_, ?_⟩
  · calc (8 / 9 * (s * 2 ^ e / 10 ^ m) : ℚ) = s * 2 ^ e / (9 / 8 * 10 ^ m) := by
          field_simp
      _ ≤ s * 2 ^ e / (s' * 2 ^ e') := by gcongr
  · calc (s * 2 ^ e / (s' * 2 ^ e') : ℚ) ≤ s * 2 ^ e / (7 / 8 * 10 ^ m) := by gcongr
      _ = 8 / 7 * (s * 2 ^ e / 10 ^ m) := by
          field_simp

theorem lt_inv_ten_pow {m : ℕ} (bound : m ≤ 308) : (8 * 2 ^ (-1074 : ℤ) : ℚ) ≤ (10 ^ m)⁻¹ := by
  have most : (10 : ℚ) ^ m ≤ 10 ^ 308 := pow_le_pow_right₀ (by norm_num) bound
  have room : 8 * 10 ^ 308 ≤ 2 ^ 1074 := by decide +kernel
  have room' : (8 * 10 ^ 308 : ℚ) ≤ 2 ^ 1074 := by exact_mod_cast room
  have power : (0 : ℚ) < 10 ^ m := by positivity
  have power' : (0 : ℚ) < 2 ^ 1074 := by positivity
  rw [zpow_neg, zpow_ofNat]
  generalize (10 : ℚ) ^ m = p at *
  generalize (10 : ℚ) ^ 308 = p' at *
  generalize (2 : ℚ) ^ 1074 = w at *
  rw [← div_eq_mul_inv, div_le_iff₀ power', inv_mul_eq_div, le_div_iff₀ power]
  linarith

theorem exists_quotient (positive : 0 < n) (few : n < 10 ^ 18) {m : ℕ} (bound : m ≤ 308) :
    ∃ q, IsNearest (n.toUInt64.toFloat / tenTo m) false q ∧ 7 / 9 * (n / 10 ^ m) ≤ q ∧
      q < 10 ^ 19 := by
  obtain ⟨s, e, parts, near⟩ := exists_parts_toFloat_of_lt positive few
  obtain ⟨q, quotient, ge, le⟩ := exists_isNearest_div_tenTo parts bound
  have least : (1 : ℚ) ≤ n := by exact_mod_cast positive
  have most : (n : ℚ) < 10 ^ 18 := by exact_mod_cast few
  rw [abs_le] at near
  refine ⟨q, quotient, le_trans ?_ ge, le.trans_lt ?_⟩
  · have lower : 7 / 8 * n ≤ (s * 2 ^ e : ℚ) := by linarith
    calc (7 / 9 * (n / 10 ^ m) : ℚ) = 8 / 9 * (7 / 8 * n / 10 ^ m) := by ring
      _ ≤ 8 / 9 * (s * 2 ^ e / 10 ^ m) := by gcongr
  · have upper : (s * 2 ^ e : ℚ) ≤ 9 / 8 * n := by linarith
    calc (8 / 7 * (s * 2 ^ e / 10 ^ m) : ℚ) ≤ 8 / 7 * (s * 2 ^ e) := by
          gcongr
          exact div_le_self (by positivity) (one_le_pow₀ (by norm_num))
      _ < 10 ^ 19 := by linarith

theorem isPositive_div_tenTo (positive : 0 < n) (few : n < 10 ^ 18) {m : ℕ} (bound : m ≤ 308) :
    isPositive (n.toUInt64.toFloat / tenTo m) = true := by
  obtain ⟨q, quotient, ge, lt⟩ := exists_quotient positive few bound
  have least : (1 : ℚ) ≤ n := by exact_mod_cast positive
  have tiny := lt_inv_ten_pow bound
  have grid : (0 : ℚ) < 2 ^ (-1074 : ℤ) := by positivity
  have one : ((10 : ℚ) ^ m)⁻¹ ≤ n / 10 ^ m := by
    rw [inv_eq_one_div]
    gcongr
  rw [quotient.isPositive_iff, underflow]
  exact ⟨by linarith, lt.trans (ten_pow_lt_overflow (by norm_num))⟩

theorem isPositive_div_div_tenTo (positive : 0 < n) (few : n < 10 ^ 18) {m : ℕ} (bound : m ≤ 308)
    (above : (3 / 2 * 2 ^ (-1074 : ℤ) : ℚ) ≤ n / 10 ^ 308 / 10 ^ m) :
    isPositive (n.toUInt64.toFloat / tenTo 308 / tenTo m) = true := by
  obtain ⟨q, quotient, ge, lt⟩ := exists_quotient positive few le_rfl
  have least : (1 : ℚ) ≤ n := by exact_mod_cast positive
  have tiny := lt_inv_ten_pow le_rfl
  have grid : (0 : ℚ) < 2 ^ (-1074 : ℤ) := by positivity
  have power : (1 : ℚ) ≤ 10 ^ 308 := one_le_pow₀ (by norm_num)
  generalize (10 : ℚ) ^ 308 = p at *
  have one : p⁻¹ ≤ n / p := by
    rw [inv_eq_one_div]
    gcongr
  have step : (2 : ℚ) ^ (-1072 : ℤ) = 4 * 2 ^ (-1074 : ℤ) := by
    rw [show (4 : ℚ) = 2 ^ (2 : ℤ) by norm_num, ← zpow_add₀ two_ne_zero]
    rfl
  obtain ⟨s, e, parts, near⟩ := quotient.exists_parts_near (by rw [step]; linarith)
    (lt.trans (ten_pow_lt_overflow (by norm_num)))
  obtain ⟨q', quotient', ge', le'⟩ := exists_isNearest_div_tenTo parts bound
  rw [abs_le] at near
  rw [quotient'.isPositive_iff, underflow]
  constructor
  · have lower : 49 / 72 * (n / p) ≤ (s * 2 ^ e : ℚ) := by linarith
    calc (1 / 2 * 2 ^ (-1074 : ℤ) : ℚ) < 49 / 81 * (3 / 2 * 2 ^ (-1074 : ℤ)) := by linarith
      _ ≤ 49 / 81 * (n / p / 10 ^ m) := by gcongr
      _ = 8 / 9 * (49 / 72 * (n / p) / 10 ^ m) := by ring
      _ ≤ 8 / 9 * (s * 2 ^ e / 10 ^ m) := by gcongr
      _ ≤ q' := ge'
  · calc q' ≤ 8 / 7 * (s * 2 ^ e / 10 ^ m) := le'
      _ ≤ 8 / 7 * (s * 2 ^ e) := by
        gcongr
        exact div_le_self (by positivity) (one_le_pow₀ (by norm_num))
      _ < 10 ^ 20 := by linarith
      _ < overflow := ten_pow_lt_overflow (by norm_num)

/-- Well inside the range the digits are read by one multiplication or by one or two divisions,
and as a positive double. -/
theorem scale?_cases (positive : 0 < n) (few : n < 10 ^ 18) (inside : WellInside (n * 10 ^ k)) :
    ∃ y, scale? n k = some y ∧ isPositive y = true ∧ ∃ m : ℕ, m ≤ 308 ∧
      ((k = m ∧ y = n.toUInt64.toFloat * tenTo m) ∨
      (k = -m ∧ y = n.toUInt64.toFloat / tenTo m) ∨
      (k = -(308 + m : ℕ) ∧ y = n.toUInt64.toFloat / tenTo 308 / tenTo m)) := by
  obtain ⟨above, below⟩ := inside
  have least : (1 : ℚ) ≤ n := by exact_mod_cast positive
  have most : (n : ℚ) < 10 ^ 18 := by exact_mod_cast few
  unfold scale?
  dsimp only
  by_cases nonneg : 0 ≤ k
  · obtain ⟨m, rfl⟩ := Int.eq_ofNat_of_zero_le nonneg
    rw [zpow_natCast] at below
    -- A one alone would overflow with a larger power.
    have bound : m ≤ 308 := by
      by_contra! far
      have large : (10 : ℚ) ^ 309 ≤ 10 ^ m := pow_le_pow_right₀ (by norm_num) far
      have room : 2 ^ 53 * 2 ^ 971 < 10 ^ 309 := by decide +kernel
      have room' : (2 ^ 53 * 2 ^ 971 : ℚ) < 10 ^ 309 := by exact_mod_cast room
      have more : (10 : ℚ) ^ m ≤ n * 10 ^ m := le_mul_of_one_le_left (by positivity) least
      have grid : (0 : ℚ) < 2 ^ 971 := by positivity
      rw [zpow_ofNat] at below
      generalize (2 : ℚ) ^ 971 = w at *
      generalize (10 : ℚ) ^ 309 = p at *
      linarith
    have read := isPositive_mul_tenTo positive few bound below
    obtain ⟨s, e, parts, -⟩ := Number.isPositive_iff.mp read
    rw [if_pos nonneg, if_pos (by exact_mod_cast bound), Int.toNat_natCast,
      isInf_of_finite parts]
    exact ⟨_, rfl, read, m, bound, Or.inl ⟨rfl, rfl⟩⟩
  · rw [if_neg nonneg]
    obtain ⟨m, rfl⟩ : ∃ m : ℕ, k = -m := ⟨(-k).toNat, by omega⟩
    rw [zpow_neg (10 : ℚ), zpow_natCast, ← div_eq_mul_inv] at above
    -- Eighteen digits leave the range before the reader would divide a third time.
    have bound : m ≤ 616 := by
      by_contra! far
      have large : (10 : ℚ) ^ 400 ≤ 10 ^ m := pow_le_pow_right₀ (by norm_num) (by omega)
      have room : 10 ^ 18 * 2 ^ 1074 < 10 ^ 400 := by decide +kernel
      have room' : (10 ^ 18 * 2 ^ 1074 : ℚ) < 10 ^ 400 := by exact_mod_cast room
      have power : (0 : ℚ) < 10 ^ m := by positivity
      have grid : (0 : ℚ) < 2 ^ 1074 := by positivity
      rw [zpow_neg, zpow_ofNat, le_div_iff₀ power] at above
      generalize (2 : ℚ) ^ 1074 = w at *
      generalize (10 : ℚ) ^ 400 = p at *
      have scaled : 3 / 2 * 10 ^ m ≤ n * w := by
        calc (3 / 2 * 10 ^ m : ℚ) = 3 / 2 * w⁻¹ * 10 ^ m * w := by field_simp
          _ ≤ n * w := by gcongr
      have most' : n * w < 10 ^ 18 * w := by gcongr
      linarith
    rw [neg_neg, Int.toNat_natCast]
    by_cases one : m ≤ 308
    · have steps : (m - 1) / 308 = 0 := by omega
      rw [steps, mul_zero, Nat.sub_zero, shrink]
      have read := isPositive_div_tenTo positive few one
      exact ⟨_, rfl, read, m, one, Or.inr (Or.inl ⟨rfl, rfl⟩)⟩
    · have steps : (m - 1) / 308 = 1 := by omega
      have nonzero := beq_zero_of_isPositive (isPositive_toFloat positive few)
      obtain ⟨m, rfl⟩ := Nat.exists_eq_add_of_lt (not_le.mp one)
      rw [steps, mul_one, shrink, nonzero, if_neg Bool.false_ne_true, shrink, add_assoc,
        Nat.add_sub_cancel_left]
      rw [add_assoc, pow_add, ← div_div] at above
      have read := isPositive_div_div_tenTo positive few (by omega) above
      exact ⟨_, rfl, read, m + 1, by omega, Or.inr (Or.inr ⟨rfl, rfl⟩)⟩

end

/-! ### Doubles -/

def signedText (negative : Bool) (cs : List Char) : List Char :=
  if negative then '-' :: cs else cs

def sizeText (s : ℕ) (e : ℤ) : List Char :=
  literal (shortestDigits .even s e).1 (shortestDigits .even s e).2

section

variable {x : Float} {negative : Bool} {s : ℕ} {e : ℤ}

theorem ofFloat_of_finite (parts : Parts.ofFloat x = .finite negative s e) :
    ofFloat x = .number (signedText negative (sizeText s e)) := by
  rw [ofFloat, parts]
  rfl

theorem ofFloat_of_not_finite (h : ¬ x.isFinite = true) : ofFloat x = .null := by
  rw [Number.isFinite_iff] at h
  unfold ofFloat
  split
  · next negative s e parts => exact absurd ⟨negative, s, e, parts⟩ h
  · rfl

theorem parts?_of_unsigned {cs : List Char} {l : Literal}
    (h : unsignedParts? negative cs = some l) : parts? (signedText negative cs) = some l := by
  cases negative with
  | true => exact h
  | false =>
    obtain ⟨minus, rest, signed, same⟩ := parts?_eq cs
    cases minus with
    | false =>
      rw [if_neg Bool.false_ne_true] at signed
      rw [signedText, if_neg Bool.false_ne_true, same, ← signed, h]
    | true =>
      rw [signed, if_pos rfl] at h
      cases h

theorem within_shortest (tie : Tie) (canonical : Canonical s e) (positive : 0 < s) :
    Within s e (shortest tie s e).value :=
  (readsBack_iff positive).mp (readsBack_shortest tie canonical.bound positive)

theorem half_le_lowEnd (canonical : Canonical s e) (positive : 0 < s) :
    1 / 2 * 2 ^ (-1074 : ℤ) ≤ lowEnd s e := by
  have least : (1 : ℚ) ≤ s := by exact_mod_cast positive
  have grid : (2 : ℚ) ^ (-1074 : ℤ) ≤ 2 ^ e := zpow_le_zpow_right₀ one_le_two canonical.lower
  refine le_trans ?_ (sub_half_le_lowEnd s e)
  have place : (1 / 2 : ℚ) ≤ s - 1 / 2 := by linarith
  gcongr

theorem exponent_shortest_natAbs_le (canonical : Canonical s e) (upper : e ≤ 971)
    (positive : 0 < s) : (shortest .even s e).exponent.natAbs ≤ exponentLimit := by
  obtain ⟨low, high⟩ := (within_shortest .even canonical positive).bounds
  obtain ⟨begins, ends⟩ :=
    Decimal.exponent_spec (shortest_spec .even (e := e) canonical.bound positive).1
  have lower := le_of_zpow_le_of_lt
    (ten_zpow_le_half.trans ((half_le_lowEnd canonical positive).trans low)) ends
  have upper' : (shortest .even s e).exponent ≤ 309 := by
    have bound : (s : ℚ) + 1 ≤ 2 ^ 53 := by exact_mod_cast canonical.bound
    have grid : (2 : ℚ) ^ e ≤ 2 ^ (971 : ℤ) := zpow_le_zpow_right₀ one_le_two upper
    have room : 2 ^ 53 * 2 ^ 971 < 10 ^ 310 := by decide +kernel
    have room' : (2 ^ 53 * 2 ^ 971 : ℚ) < 10 ^ 310 := by exact_mod_cast room
    refine le_of_zpow_le_of_lt (begins.trans high) ?_
    calc highEnd s e ≤ 2 ^ 53 * 2 ^ (971 : ℤ) := by
          unfold highEnd
          gcongr
          linarith
      _ < 10 ^ (309 + 1 : ℤ) := by
          rw [zpow_ofNat, show (309 + 1 : ℤ) = 310 from rfl, zpow_ofNat]
          exact room'
  unfold exponentLimit
  omega

theorem significant_shortest (tie : Tie) (canonical : Canonical s e) (positive : 0 < s) :
    IsRun (shortest tie s e).significant ∧ (shortest tie s e).significant.length ≤ 18 ∧
      placed (shortest tie s e).significant (shortest tie s e).exponent =
        (shortest tie s e).value := by
  obtain ⟨n, c, same, few, least, most⟩ :=
    exists_shortest_eq tie (e := e) canonical.bound positive
  obtain ⟨run, length, value⟩ :=
    significant_spec (shortest_spec tie (e := e) canonical.bound positive).1
  have count : digitCount (shortest tie s e).coefficient ≤ 18 := by
    rw [digitCount_le_iff (by norm_num), same]
    calc c ≤ 10 ^ (n + 1) := most
      _ < 10 ^ 18 := Nat.pow_lt_pow_right (by norm_num) (by omega)
  exact ⟨run, length.trans count, value⟩

theorem denotes_sizeText (canonical : Canonical s e) (upper : e ≤ 971) :
    Denotes (sizeText s e) (if s = 0 then 0 else (shortest .even s e).value) := by
  by_cases zero : s = 0
  · rw [if_pos zero, sizeText, shortestDigits, if_pos zero]
    change Denotes (['0'] ++ '.' :: (['0'] ++ [])) 0
    have digit : ∀ c ∈ ['0'], isDigit c = true := List.forall_mem_singleton.mpr rfl
    exact denotes_pointed rfl digit (by simp) digit rfl (by simp [ofDigits]) (by simp [ofDigits])
      (by simp)
  · have positive : 0 < s := Nat.pos_of_ne_zero zero
    obtain ⟨run, short, value⟩ := significant_shortest .even canonical positive
    rw [if_neg zero, sizeText, shortestDigits, if_neg zero, ← value]
    exact denotes_literal run short (exponent_shortest_natAbs_le canonical upper positive)

theorem isLiteral_signedText (parts : Parts.ofFloat x = .finite negative s e) :
    isLiteral (signedText negative (sizeText s e)) = true := by
  obtain ⟨l, unsigned, -⟩ :=
    denotes_sizeText (canonical_of_finite parts) (exponent_le_of_finite parts) negative
  rw [isLiteral, parts?_of_unsigned unsigned]
  rfl

theorem isLiteral_integerText (n : ℤ) : isLiteral (integerText n) = true := by
  have whole : isWhole (digits n.natAbs) = true := by
    rcases Nat.eq_zero_or_pos n.natAbs with zero | positive
    · rw [zero]
      rfl
    · exact (isRun_digits positive).isWhole
  have all : ∀ c ∈ digits n.natAbs, isDigit c = true := fun c member => isDigit_of_mem_digits member
  have no_exponent : exponent? [] = some none := rfl
  have parts := unsignedParts?_whole (decide (n < 0)) whole all no_exponent
  rw [List.append_nil] at parts
  have text : integerText n = signedText (decide (n < 0)) (digits n.natAbs) := by
    simp only [integerText, signedText, decide_eq_true_eq]
  rw [isLiteral, text, parts?_of_unsigned parts]
  rfl

/-! ### Reading what was written -/

/-- What the number of a double is read as: finite, and positive only for a positive double. -/
structure ReadAs (negative : Bool) (s : ℕ) (e : ℤ) (y : Float) : Prop where
  read : float? (.number (signedText negative (sizeText s e))) = some y
  finite : y.isFinite = true
  positive : isPositive y = (!negative && decide (0 < s))

/-- Zero, the least double and the greatest ones, from which rounding might lead out of the range. -/
def extremes : List (ℕ × ℤ) :=
  [(0, -1074), (1, -1074), (2 ^ 53 - 3, 971), (2 ^ 53 - 2, 971), (2 ^ 53 - 1, 971)]

/-- They are read as they were, but for one of them, for which the next one is read. -/
theorem float?_of_extreme : ∀ p ∈ extremes, ∀ negative ∈ [false, true],
    (float? (.number (signedText negative (sizeText p.1 p.2)))).map Parts.ofFloat =
      some (.finite negative (if p.1 = 2 ^ 53 - 2 then 2 ^ 53 - 1 else p.1) p.2) := by
  decide +kernel

theorem exists_parts_of_extreme (negative : Bool) (extreme : (s, e) ∈ extremes) :
    ∃ y, float? (.number (signedText negative (sizeText s e))) = some y ∧
      Parts.ofFloat y = .finite negative (if s = 2 ^ 53 - 2 then 2 ^ 53 - 1 else s) e :=
  Option.map_eq_some_iff.mp
    (float?_of_extreme (s, e) extreme negative (by cases negative <;> decide))

theorem isPositive_eq (parts : Parts.ofFloat x = .finite negative s e) :
    isPositive x = (!negative && decide (0 < s)) := by
  rw [Bool.eq_iff_iff, Bool.and_eq_true, Bool.not_eq_true', decide_eq_true_eq,
    Number.isPositive_iff, parts]
  constructor
  · rintro ⟨s', e', same, nonzero⟩
    cases same
    exact ⟨rfl, nonzero⟩
  · rintro ⟨rfl, nonzero⟩
    exact ⟨s, e, rfl, nonzero⟩

theorem exists_readAs_of_extreme (extreme : (s, e) ∈ extremes) : ∃ y, ReadAs negative s e y := by
  obtain ⟨y, read, parts⟩ := exists_parts_of_extreme negative extreme
  refine ⟨y, read, Number.isFinite_iff.mpr ⟨_, _, _, parts⟩, ?_⟩
  have same : 0 < (if s = 2 ^ 53 - 2 then 2 ^ 53 - 1 else s) ↔ 0 < s := by
    split <;> omega
  rw [isPositive_eq parts, decide_eq_decide.mpr same]

theorem wellInside_shortest (canonical : Canonical s e) (upper : e ≤ 971) (positive : 0 < s)
    (inner : ¬ ((s = 1 ∧ e = -1074) ∨ (2 ^ 53 - 3 ≤ s ∧ e = 971))) :
    WellInside (shortest .even s e).value := by
  obtain ⟨low, high⟩ := (within_shortest .even canonical positive).bounds
  have bound := canonical.bound
  have normal := canonical.normal
  constructor
  · refine le_trans ?_ ((sub_half_le_lowEnd s e).trans low)
    have two : (2 : ℚ) ≤ s := by
      have : 2 ≤ s := by omega
      exact_mod_cast this
    have grid : (2 : ℚ) ^ (-1074 : ℤ) ≤ 2 ^ e := zpow_le_zpow_right₀ one_le_two canonical.lower
    have place : (3 / 2 : ℚ) ≤ s - 1 / 2 := by linarith
    gcongr
  · refine high.trans ?_
    unfold highEnd
    by_cases last : e = 971
    · have most : (s : ℚ) ≤ 2 ^ 53 - 4 := by
        have : s + 4 ≤ 2 ^ 53 := by omega
        have cast : (s : ℚ) + 4 ≤ 2 ^ 53 := by exact_mod_cast this
        linarith
      rw [last]
      gcongr
      linarith
    · have most : (s : ℚ) + 1 ≤ 2 ^ 53 := by exact_mod_cast bound
      have half : (2 : ℚ) ^ e ≤ 2 ^ (971 : ℤ) / 2 := by
        rw [show (2 : ℚ) ^ (971 : ℤ) / 2 = 2 ^ (970 : ℤ) by
          rw [show (971 : ℤ) = 970 + 1 by norm_num, zpow_add_one₀ two_ne_zero]
          exact mul_div_cancel_right₀ _ two_ne_zero]
        exact zpow_le_zpow_right₀ one_le_two (by omega)
      calc ((s : ℚ) + 1 / 2) * 2 ^ e ≤ 2 ^ 53 * (2 ^ (971 : ℤ) / 2) := by
            gcongr
            linarith
        _ = 2 ^ 52 * 2 ^ (971 : ℤ) := by ring
        _ ≤ (2 ^ 53 - 7 / 2) * 2 ^ (971 : ℤ) := by
            gcongr
            norm_num

theorem extreme_or_wellInside (canonical : Canonical s e) (upper : e ≤ 971) :
    (s, e) ∈ extremes ∨ 0 < s ∧ WellInside (shortest .even s e).value := by
  have bound := canonical.bound
  have normal := canonical.normal
  by_cases outer : s = 0 ∨ (s = 1 ∧ e = -1074) ∨ (2 ^ 53 - 3 ≤ s ∧ e = 971)
  · left
    simp only [extremes, List.mem_cons, Prod.mk.injEq, List.not_mem_nil, or_false]
    omega
  · have positive : 0 < s := by omega
    exact Or.inr ⟨positive, wellInside_shortest canonical upper positive fun ends =>
      outer (Or.inr ends)⟩

/-- The number of a double is read by scaling digits that stand for its shortest decimal. -/
theorem exists_float?_signedText (negative : Bool) (canonical : Canonical s e) (upper : e ≤ 971) :
    ∃ l : Literal, parts? (signedText negative (sizeText s e)) = some l ∧
      l.StandsFor negative (if s = 0 then 0 else (shortest .even s e).value) ∧
      float? (.number (signedText negative (sizeText s e))) =
        (scale? l.coefficient l.scale).map fun y => if negative then -y else y := by
  obtain ⟨l, unsigned, stands⟩ := denotes_sizeText canonical upper negative
  refine ⟨l, parts?_of_unsigned unsigned, stands, ?_⟩
  rw [float?, parts?_of_unsigned unsigned, Option.bind_some,
    Literal.value?_eq_scale? (stands.digits.trans (by decide)) stands.exponent, stands.sign]

theorem Literal.StandsFor.coefficient_pos {l : Literal} {q : ℚ} (h : l.StandsFor negative q)
    (positive : 0 < q) : 0 < l.coefficient := by
  refine Nat.pos_of_ne_zero fun zero => ?_
  have value := h.value
  rw [zero, Nat.cast_zero, zero_mul] at value
  exact positive.ne value

theorem WellInside.pos {q : ℚ} (h : WellInside q) : 0 < q :=
  lt_of_lt_of_le (by positivity) h.above

theorem exists_readAs_of_inside (canonical : Canonical s e) (upper : e ≤ 971) (positive : 0 < s)
    (inside : WellInside (shortest .even s e).value) : ∃ y, ReadAs negative s e y := by
  obtain ⟨l, -, stands, scaled⟩ := exists_float?_signedText negative canonical upper
  rw [if_neg positive.ne'] at stands
  obtain ⟨y, read, good, -⟩ := scale?_cases (stands.coefficient_pos inside.pos) stands.digits
    (stands.value ▸ inside)
  rw [read, Option.map_some] at scaled
  obtain ⟨s', e', parts, positive'⟩ := Number.isPositive_iff.mp good
  cases negative with
  | false =>
    refine ⟨y, scaled, Number.isFinite_iff.mpr ⟨false, s', e', parts⟩, ?_⟩
    rw [good, decide_eq_true positive]
    rfl
  | true =>
    refine ⟨-y, scaled, Number.isFinite_iff.mpr ⟨true, s', e', ofFloat_neg parts⟩, ?_⟩
    rw [isPositive_eq (ofFloat_neg parts)]
    rfl

/-- A finite double is read back as a finite double, and a positive one as a positive one. -/
theorem exists_float?_of_finite (finite : x.isFinite = true) :
    ∃ y, float? (ofFloat x) = some y ∧ y.isFinite = true ∧ isPositive y = isPositive x := by
  obtain ⟨negative, s, e, parts⟩ := Number.isFinite_iff.mp finite
  have canonical := canonical_of_finite parts
  have upper := exponent_le_of_finite parts
  suffices ∃ y, ReadAs negative s e y by
    obtain ⟨y, read, finite', positive⟩ := this
    exact ⟨y, by rw [ofFloat_of_finite parts, read], finite', positive.trans (isPositive_eq parts).symm⟩
  -- The ends of the range and what lies between them are read for different reasons.
  rcases extreme_or_wellInside canonical upper with extreme | ⟨positive, inside⟩
  · exact exists_readAs_of_extreme extreme
  · exact exists_readAs_of_inside canonical upper positive inside

end

end FermiQuiz.Json
