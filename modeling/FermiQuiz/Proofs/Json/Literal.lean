import Mathlib
import FermiQuiz.Json.Number
import FermiQuiz.Number.Numeral
import FermiQuiz.Proofs.Number.Decimal
import FermiQuiz.Proofs.Number.Numeral

/-!
# The numbers of literals

A literal is also a numeral, and as a numeral it is read as the nearest double. The reader of
documents gives the same double when the digits make a number below `2 ^ 53` and the power of ten is
at most twenty-two either way: both are then doubles, and one operation rounds the result.
-/

namespace FermiQuiz.Json

open Number

/-! ### Literals as numerals -/

def exponentValue : Option (Bool × List Char) → ℤ
  | none => 0
  | some (negative, ds) => if negative then -ofDigits ds else ofDigits ds

namespace Literal

/-- The number that the digits spell without the point. -/
def coefficient (l : Literal) : ℕ := ofDigits (l.whole ++ l.fraction)

def scale (l : Literal) : ℤ := exponentValue l.exponent - l.fraction.length

def nearest (l : Literal) : Float :=
  if l.negative then -nearestDecimal l.coefficient l.scale
  else nearestDecimal l.coefficient l.scale

end Literal

theorem exponent?_cons (c : Char) (cs : List Char) : exponent? (c :: cs) =
    if c = 'e' || c = 'E' then
      if (takeSign cs).2.isEmpty || !(takeSign cs).2.all isDigit then none
      else some (some (takeSign cs))
    else none := rfl

theorem exponentPart?_cons (c : Char) (cs : List Char) : exponentPart? (c :: cs) =
    if c = 'e' || c = 'E' then
      if (takeSign cs).2.isEmpty || !(takeSign cs).2.all isDigit then none
      else some (exponentValue (some (takeSign cs)))
    else none := rfl

theorem exponentPart?_of_exponent? {cs : List Char} {x : Option (Bool × List Char)}
    (h : exponent? cs = some x) : exponentPart? cs = some (exponentValue x) := by
  cases cs with
  | nil =>
    cases h
    rfl
  | cons c cs =>
    rw [exponent?_cons] at h
    rw [exponentPart?_cons]
    split at h
    · next mark =>
      rw [if_pos mark]
      split at h
      · cases h
      · next proper =>
        cases h
        rw [if_neg proper]
    · cases h

structure Spells (l : Literal) (cs rest : List Char) : Prop where
  sign : cs = if l.negative then '-' :: rest else rest
  whole : rest.takeWhile isDigit = l.whole
  nonempty : l.whole ≠ []
  tail : (∃ after, rest.dropWhile isDigit = '.' :: after ∧ after.takeWhile isDigit = l.fraction ∧
      exponent? (after.dropWhile isDigit) = some l.exponent) ∨
    (l.fraction = [] ∧ (∀ after, rest.dropWhile isDigit ≠ '.' :: after) ∧
      exponent? (rest.dropWhile isDigit) = some l.exponent)

/-- Whether digits may stand before the point: some, and no idle zero in front. -/
def isWhole : List Char → Bool
  | [] => false
  | ['0'] => true
  | d :: _ => d != '0'

def unsignedParts? (negative : Bool) (rest : List Char) : Option Literal :=
  if !isWhole (rest.takeWhile isDigit) then none
  else match rest.dropWhile isDigit with
    | '.' :: after =>
      if (after.takeWhile isDigit).isEmpty then none
      else (exponent? (after.dropWhile isDigit)).map
        (⟨negative, rest.takeWhile isDigit, after.takeWhile isDigit, ·⟩)
    | after => (exponent? after).map (⟨negative, rest.takeWhile isDigit, [], ·⟩)

theorem parts?_eq (cs : List Char) : ∃ negative rest,
    (cs = if negative then '-' :: rest else rest) ∧
      parts? cs = unsignedParts? negative rest := by
  unfold parts?
  split
  next negative rest signed =>
    split at signed
    · cases signed
      exact ⟨true, _, rfl, rfl⟩
    · cases signed
      exact ⟨false, _, rfl, rfl⟩

theorem exists_spells {cs : List Char} {l : Literal} (h : parts? cs = some l) :
    ∃ rest, Spells l cs rest := by
  obtain ⟨negative, rest, sign, same⟩ := parts?_eq cs
  rw [same, unsignedParts?] at h
  split at h
  · cases h
  · next proper =>
    have nonempty : rest.takeWhile isDigit ≠ [] := by
      intro none
      rw [none] at proper
      exact proper rfl
    split at h
    · next after pointed =>
      split at h
      · cases h
      · obtain ⟨exponent, read, rfl⟩ := Option.map_eq_some_iff.mp h
        exact ⟨rest, sign, rfl, nonempty, Or.inl ⟨after, pointed, rfl, read⟩⟩
    · next other =>
      obtain ⟨exponent, read, rfl⟩ := Option.map_eq_some_iff.mp h
      exact ⟨rest, sign, rfl, nonempty, Or.inr ⟨rfl, other, read⟩⟩

theorem Spells.unsigned?_eq {l : Literal} {cs rest : List Char} (h : Spells l cs rest) :
    unsigned? rest = some (l.coefficient, l.scale) := by
  obtain ⟨-, whole, nonempty, ⟨after, pointed, fraction, exponent⟩ | ⟨none, other, exponent⟩⟩ := h
  · unfold unsigned?
    simp only [whole, pointed, fraction, exponentPart?_of_exponent? exponent]
    rw [if_neg (by simp [nonempty])]
    rfl
  · unfold unsigned?
    split
    next fraction after divided =>
      split at divided
      · next pointed => exact absurd pointed (other _)
      · cases divided
        simp only [whole, exponentPart?_of_exponent? exponent]
        rw [if_neg (by simp [nonempty])]
        simp [Literal.coefficient, Literal.scale, none]

/-- A literal begins with a digit after its sign, so that it is not read as a word and has no
other sign. -/
theorem Spells.exists_digit {l : Literal} {cs rest : List Char} (h : Spells l cs rest) :
    ∃ c tail, rest = c :: tail ∧ isDigit c = true := by
  cases rest with
  | nil => exact absurd h.whole.symm h.nonempty
  | cons c tail =>
    refine ⟨c, tail, rfl, ?_⟩
    by_contra other
    have whole := h.whole
    rw [List.takeWhile_cons_of_neg other] at whole
    exact h.nonempty whole.symm

theorem readChars?_of_parts? {cs : List Char} {l : Literal} (h : parts? cs = some l) :
    readChars? cs = some l.nearest := by
  obtain ⟨rest, spells⟩ := exists_spells h
  obtain ⟨c, tail, rest_eq, digit⟩ := spells.exists_digit
  have sign : takeSign cs = (l.negative, rest) := by
    rw [spells.sign]
    cases l.negative with
    | false =>
      rw [rest_eq]
      exact takeSign_of_digit digit
    | true => rfl
  rw [readChars?_of_digit sign rest_eq digit, spells.unsigned?_eq]
  rfl

theorem Literal.nearest_beq_zero_iff (l : Literal) :
    (l.nearest == 0.0) = true ↔ (l.coefficient * 10 ^ l.scale : ℚ) ≤ underflow := by
  rw [← (isNearest_nearestDecimal l.coefficient l.scale).beq_zero_iff, nearest]
  split
  · exact neg_beq_zero_iff _
  · rfl

/-! ### Collecting digits -/

def ofDigitsFrom (n : ℕ) (cs : List Char) : ℕ :=
  cs.foldl (fun n c => 10 * n + (c.toNat - '0'.toNat)) n

theorem ofDigitsFrom_cons (n : ℕ) (c : Char) (cs : List Char) :
    ofDigitsFrom n (c :: cs) = ofDigitsFrom (10 * n + (c.toNat - 48)) cs := by
  have zero : '0'.toNat = 48 := rfl
  rw [ofDigitsFrom, List.foldl_cons, ofDigitsFrom, zero]

theorem le_ofDigitsFrom (n : ℕ) (cs : List Char) : n ≤ ofDigitsFrom n cs := by
  induction cs generalizing n with
  | nil => exact le_rfl
  | cons c cs ih =>
    rw [ofDigitsFrom_cons]
    exact le_trans (by omega) (ih _)

theorem collectWhole_eq {n : ℕ} {cs : List Char} (h : ofDigitsFrom n cs < collectorLimit) :
    collectWhole n cs = (ofDigitsFrom n cs, 0) := by
  induction cs generalizing n with
  | nil => rfl
  | cons c cs ih =>
    rw [ofDigitsFrom_cons] at h ⊢
    have fits : 10 * n + (c.toNat - 48) < collectorLimit := (le_ofDigitsFrom _ cs).trans_lt h
    rw [collectWhole, if_pos fits, ih h]

theorem collectFraction_eq {n : ℕ} {cs : List Char} (h : ofDigitsFrom n cs < collectorLimit) :
    collectFraction n cs = (ofDigitsFrom n cs, cs.length) := by
  induction cs generalizing n with
  | nil => rfl
  | cons c cs ih =>
    rw [ofDigitsFrom_cons] at h ⊢
    have fits : 10 * n + (c.toNat - 48) < collectorLimit := (le_ofDigitsFrom _ cs).trans_lt h
    rw [collectFraction, if_pos fits, ih h, List.length_cons]

/-! ### Short literals -/

theorem exists_parts_toFloat {n : ℕ} (bound : n < 2 ^ 53) :
    ∃ s e, Parts.ofFloat n.toUInt64.toFloat = .finite false s e ∧ (s * 2 ^ e : ℚ) = n := by
  have same : n.toUInt64.toNat = n := Nat.mod_eq_of_lt (bound.trans (by norm_num))
  have rounded := isNearest_toFloat n.toUInt64
  rw [same, ← mul_one (n : ℚ), ← zpow_zero (2 : ℚ)] at rounded
  obtain ⟨s, e, parts, exact_value⟩ := rounded.exact bound (by norm_num) (by norm_num)
  refine ⟨s, e, parts, exact_value.trans ?_⟩
  rw [zpow_zero, mul_one]

theorem exists_parts_tenTo {n : ℕ} (small : n ≤ 22) :
    ∃ s e, Parts.ofFloat (tenTo n) = .finite false s e ∧ (s * 2 ^ e : ℚ) = 10 ^ n := by
  have rounded := isNearest_nearest (Nat.pow 10 n) one_pos
  have split : ((Nat.pow 10 n : ℕ) : ℚ) / (1 : ℕ) = (5 ^ n : ℕ) * 2 ^ (n : ℤ) := by
    simp only [Nat.pow_eq]
    push_cast
    rw [div_one, zpow_natCast, ← mul_pow]
    norm_num
  have bound : 5 ^ n < 2 ^ 53 :=
    (Nat.pow_le_pow_right (by norm_num) small).trans_lt (by norm_num)
  rw [split] at rounded
  obtain ⟨s, e, parts, exact_value⟩ := rounded.exact bound (by omega) (by omega)
  refine ⟨s, e, parts, exact_value.trans ?_⟩
  push_cast
  rw [zpow_natCast, ← mul_pow]
  norm_num

/-- With few digits and a small power of ten one exact operation is left, which rounds once. -/
theorem scale?_eq {n : ℕ} {k : ℤ} {x : Float} (bound : n < 2 ^ 53) (small : k.natAbs ≤ 22)
    (h : scale? n k = some x) : x = nearestDecimal n k := by
  obtain ⟨s, e, parts, whole⟩ := exists_parts_toFloat bound
  unfold scale? at h
  simp only at h
  split at h
  · next nonneg =>
    obtain ⟨s', e', parts', power⟩ := exists_parts_tenTo (n := k.toNat) (by omega)
    rw [if_pos (by omega)] at h
    split at h
    · cases h
    · cases h
      have product := isNearest_mul parts parts'
      rw [bne_self_eq_false, whole, power, ← zpow_natCast, Int.toNat_of_nonneg nonneg] at product
      exact product.unique (isNearest_nearestDecimal n k)
  · next negative =>
    have steps : ((-k).toNat - 1) / 308 = 0 := Nat.div_eq_of_lt (by omega)
    obtain ⟨s', e', parts', power⟩ := exists_parts_tenTo (n := (-k).toNat) (by omega)
    rw [steps, mul_zero, Nat.sub_zero, shrink] at h
    cases h
    have nonzero : 0 < s' := by
      refine Nat.pos_of_ne_zero fun zero => ?_
      rw [zero, Nat.cast_zero, zero_mul] at power
      exact (pow_ne_zero _ (by norm_num : (10 : ℚ) ≠ 0)) power.symm
    have quotient := isNearest_div parts parts' nonzero
    rw [bne_self_eq_false, whole, power, ← zpow_natCast, Int.toNat_of_nonneg (by omega),
      zpow_neg, div_inv_eq_mul] at quotient
    exact quotient.unique (isNearest_nearestDecimal n k)

/-- A literal whose digits make a number below `2 ^ 53` and whose last digit stands for a power of
ten up to the twenty-second, either way. -/
structure Literal.IsShort (l : Literal) : Prop where
  digits : l.coefficient < 2 ^ 53
  power : l.scale.natAbs ≤ 22

/-- When all digits fit and the exponent is not out of all range, the literal is its coefficient
scaled by its power of ten. -/
theorem Literal.value?_eq_scale? {l : Literal} (fits : l.coefficient < collectorLimit)
    (near : ∀ e ∈ l.exponent, ofDigits e.2 ≤ exponentLimit) :
    l.value? = (scale? l.coefficient l.scale).map fun x => if l.negative then -x else x := by
  have all : ofDigitsFrom (ofDigitsFrom 0 l.whole) l.fraction = l.coefficient := by
    rw [coefficient, ofDigits, List.foldl_append]
    rfl
  have whole : ofDigitsFrom 0 l.whole < collectorLimit :=
    (le_ofDigitsFrom _ l.fraction).trans_lt (all.trans_lt fits)
  unfold value?
  rw [collectWhole_eq whole]
  dsimp only
  rw [collectFraction_eq (all.trans_lt fits), all]
  dsimp only
  cases written : l.exponent with
  | none =>
    have scale_eq : ((0 : ℕ) : ℤ) - l.fraction.length = l.scale := by
      rw [scale, written]
      rfl
    simp only [scale_eq]
  | some exponent =>
    obtain ⟨negative, ds⟩ := exponent
    have scale_eq : (if negative = true then ((0 : ℕ) : ℤ) - l.fraction.length - ofDigits ds
        else ((0 : ℕ) : ℤ) - l.fraction.length + ofDigits ds) = l.scale := by
      rw [scale, written, exponentValue]
      split <;> push_cast <;> ring
    simp only [if_neg (near (negative, ds) written).not_gt, scale_eq]

/-- An exponent out of all range leaves zero or no number. -/
theorem Literal.not_isPositive_of_exponent {l : Literal} {x : Float} {e : Bool × List Char}
    (written : l.exponent = some e) (far : exponentLimit < ofDigits e.2) (h : l.value? = some x) :
    isPositive x = false := by
  obtain ⟨negative, ds⟩ := e
  unfold value? at h
  rw [written] at h
  simp only [if_pos far] at h
  obtain ⟨y, size, rfl⟩ := Option.map_eq_some_iff.mp h
  split at size
  · cases size
    cases l.negative <;> decide +kernel
  · cases size

theorem Literal.IsShort.value?_eq {l : Literal} {x : Float} (short : l.IsShort)
    (h : l.value? = some x) (positive : isPositive x = true) : x = l.nearest := by
  obtain ⟨digits, power⟩ := short
  have near : ∀ e ∈ l.exponent, ofDigits e.2 ≤ exponentLimit := by
    intro e written
    by_contra! far
    rw [not_isPositive_of_exponent written far h] at positive
    cases positive
  rw [value?_eq_scale? (digits.trans (by decide)) near] at h
  obtain ⟨y, size, sign⟩ := Option.map_eq_some_iff.mp h
  rw [← sign, nearest, scale?_eq digits power size]

end FermiQuiz.Json
