import Mathlib
import FermiQuiz.Proofs.Magnitude
import FermiQuiz.Proofs.Number.Logarithm
import FermiQuiz.Proofs.Number.ReadBack

/-!
# Written orders of magnitude

A decimal of at most fifteen digits that is read as a double has the order of magnitude it was
written with. It reaches its power of ten, and rounding respects the order. It misses the next one
by more than one part in `10 ^ 15`, which is more than rounding moves the two of them together.
-/

namespace FermiQuiz

open Number
open Json (Denotes IsRun placed exponentTail)

/-! ### Rounding below powers of ten -/

section

variable {x : Float} {q : ℚ} {k : ℤ}

/-- What is as far below the next power of ten as a number of fifteen digits has the order of
magnitude of its rounding. -/
theorem magnitude_of_isNearest (nearest : IsNearest x false q) (lower : -307 ≤ k) (upper : k ≤ 307)
    (above : 10 ^ k ≤ q) (below : q ≤ 10 ^ (k + 1) * (1 - 1 / 10 ^ 15)) : magnitude x = .ok k := by
  have power : (0 : ℚ) < 10 ^ (k + 1) := by positivity
  have most : q < overflow := by
    refine lt_of_le_of_lt ?_ (ten_zpow_lt_overflow (k := k + 1) (by omega))
    linarith
  obtain ⟨s, e, parts, error⟩ :=
    nearest.exists_parts_of_lt ((two_zpow_le_ten_zpow lower).trans above) most
  rw [← value_eq parts] at error
  have positive : 0 < value x := by
    have base : (0 : ℚ) < 10 ^ k := by positivity
    have near := neg_le_of_abs_le error
    linarith
  obtain ⟨m, known⟩ := exists_magnitude_iff.mpr (isPositive_of_value_pos parts positive)
  have reached : k ≤ m := by
    have base := isNearest_nearestDecimal 1 k
    rw [Nat.cast_one, one_mul] at base
    exact (le_magnitude_iff known k).mpr (base.le nearest above)
  have missed : m < k + 1 := by
    by_contra! beyond
    have far := power_le_value_of_le_magnitude known (by omega) (by omega) beyond
    have near := le_of_abs_le error
    linarith
  rw [known, le_antisymm (Int.lt_add_one_iff.mp missed) reached]

theorem floor_logb_eq (above : 10 ^ k ≤ q) (below : q < 10 ^ (k + 1)) :
    ⌊Real.logb 10 q⌋ = k := by
  have above' := (Rat.cast_le (K := ℝ)).mpr above
  have below' := (Rat.cast_lt (K := ℝ)).mpr below
  rw [Rat.cast_zpow, Rat.cast_ofNat] at above' below'
  have positive : (0 : ℝ) < q := lt_of_lt_of_le (by positivity) above'
  rw [Int.floor_eq_iff]
  constructor
  · rwa [Real.le_logb_iff_rpow_le (by norm_num) positive, Real.rpow_intCast]
  · rw [Real.logb_lt_iff_lt_rpow (by norm_num) positive]
    rwa [← Int.cast_one, ← Int.cast_add, Real.rpow_intCast]

end

/-! ### Digits -/

section

variable {ds cs : List Char} {k : ℤ} {q : ℚ}

theorem Json.IsRun.pow_le_ofDigits (run : IsRun ds) : 10 ^ (ds.length - 1) ≤ ofDigits ds := by
  obtain ⟨c, cs, rfl, nonzero⟩ := run.first
  have bounds := isDigit_iff.mp (run.all c List.mem_cons_self)
  have first : 1 ≤ ofDigits [c] := by
    have apart : c.toNat ≠ '0'.toNat := fun same => nonzero (Char.toNat_inj.mp same)
    change 1 ≤ 10 * 0 + (c.toNat - 48)
    change c.toNat ≠ 48 at apart
    omega
  calc 10 ^ cs.length = 10 ^ cs.length * 1 := (mul_one _).symm
    _ ≤ 10 ^ cs.length * ofDigits [c] := Nat.mul_le_mul_left _ first
    _ ≤ 10 ^ cs.length * ofDigits [c] + ofDigits cs := Nat.le_add_right _ _
    _ = ofDigits (c :: cs) := (Json.ofDigits_append [c] cs).symm

theorem zpow_le_placed (run : IsRun ds) (k : ℤ) : 10 ^ k ≤ placed ds k := by
  have least : (10 : ℚ) ^ (ds.length - 1) ≤ ofDigits ds := by exact_mod_cast run.pow_le_ofDigits
  have filled := run.length_pos
  calc (10 : ℚ) ^ k = 10 ^ (ds.length - 1) * 10 ^ (k - ds.length + 1) := by
        rw [← zpow_natCast, ← zpow_add₀ (by norm_num)]
        congr 1
        omega
    _ ≤ placed ds k := by
        unfold placed
        gcongr

/-- Digits miss the next power of ten by one in the last place at least. -/
theorem placed_le (run : IsRun ds) (short : ds.length ≤ 15) (k : ℤ) :
    placed ds k ≤ 10 ^ (k + 1) * (1 - 1 / 10 ^ 15) := by
  have most : (ofDigits ds : ℚ) + 1 ≤ 10 ^ ds.length := by
    exact_mod_cast Json.ofDigits_lt run.all
  have place : (10 : ℚ) ^ (k + 1) / 10 ^ 15 ≤ 10 ^ (k - ds.length + 1) := by
    rw [← zpow_natCast, ← zpow_sub₀ (by norm_num)]
    exact zpow_le_zpow_right₀ (by norm_num) (by omega)
  have whole : (10 : ℚ) ^ ds.length * 10 ^ (k - ds.length + 1) = 10 ^ (k + 1) := by
    rw [← zpow_natCast, ← zpow_add₀ (by norm_num)]
    congr 1
    ring
  calc placed ds k = (ofDigits ds + 1) * 10 ^ (k - ds.length + 1) - 10 ^ (k - ds.length + 1) := by
        unfold placed
        ring
    _ ≤ 10 ^ ds.length * 10 ^ (k - ds.length + 1) - 10 ^ (k + 1) / 10 ^ 15 := by gcongr
    _ = 10 ^ (k + 1) * (1 - 1 / 10 ^ 15) := by
        rw [whole]
        ring

theorem exists_readChars?_of_denotes (h : Denotes cs q) :
    ∃ x, readChars? cs = some x ∧ IsNearest x false q := by
  obtain ⟨l, unsigned, sign, value, -, -⟩ := h false
  refine ⟨l.nearest, Json.readChars?_of_parts? (Json.parts?_of_unsigned unsigned), ?_⟩
  rw [Json.Literal.nearest, sign, if_neg Bool.false_ne_true, ← value]
  exact isNearest_nearestDecimal _ _

end

/-- A number written with up to fifteen digits is read as the double nearest to it, and the order of
magnitude of that double is the power of ten of the first digit, which is the whole part of the
logarithm of the number as it was written. -/
theorem magnitude_of_digits {ds : List Char} {k : ℤ} (run : IsRun ds) (short : ds.length ≤ 15)
    (lower : -307 ≤ k) (upper : k ≤ 307) :
    (∃ x, read? (String.ofList (pointed ds ++ exponentTail k)) = some x ∧
      IsNearest x false (placed ds k)) ∧
    (∀ x, IsNearest x false (placed ds k) → magnitude x = .ok k) ∧
    ⌊Real.logb 10 (placed ds k)⌋ = k := by
  have above := zpow_le_placed run k
  have below := placed_le run short k
  refine ⟨?_, fun x nearest => magnitude_of_isNearest nearest lower upper above below,
    floor_logb_eq above ?_⟩
  · have near : k.natAbs ≤ Json.exponentLimit := by
      unfold Json.exponentLimit
      omega
    rw [read?, String.toList_ofList]
    exact exists_readChars?_of_denotes (Json.denotes_exponent run (by omega) near)
  · have power : (0 : ℚ) < 10 ^ (k + 1) := by positivity
    linarith

/-- Fifteen nines, one in the last place below a power of ten that is no double. -/
theorem magnitude_of_fifteen_nines :
    IsRun (List.replicate 15 '9') ∧ (List.replicate 15 '9').length ≤ 15 ∧
      ∃ x, read? "9.99999999999999e+22" = some x ∧ magnitude x = .ok 22 := by
  have all : ∀ c ∈ List.replicate 15 '9', isDigit c = true := by
    intro c member
    rw [List.eq_of_mem_replicate member]
    rfl
  have run : IsRun (List.replicate 15 '9') := ⟨all, '9', List.replicate 14 '9', rfl, by decide⟩
  have short : (List.replicate 15 '9').length ≤ 15 := by decide
  obtain ⟨⟨x, read, nearest⟩, known, -⟩ :=
    magnitude_of_digits run short (k := 22) (by decide) (by decide)
  have text : String.ofList (pointed (List.replicate 15 '9') ++ exponentTail 22) =
      "9.99999999999999e+22" := by
    decide
  rw [text] at read
  exact ⟨run, short, x, read, known x nearest⟩

end FermiQuiz
