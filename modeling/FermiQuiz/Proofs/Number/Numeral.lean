import Mathlib
import FermiQuiz.Number.Numeral
import FermiQuiz.Proofs.Number.Range

/-!
# Numerals that begin with a digit

Such a numeral is no word, so it is read as the double nearest to the number that it spells. That
is finite unless the number overflows, whatever its sign.
-/

namespace FermiQuiz.Number

theorem isDigit_iff {c : Char} : isDigit c = true ↔ 48 ≤ c.toNat ∧ c.toNat ≤ 57 := by
  unfold isDigit
  rw [Bool.and_eq_true, decide_eq_true_eq, decide_eq_true_eq, Char.le_def, Char.le_def,
    UInt32.le_iff_toNat_le, UInt32.le_iff_toNat_le]
  rfl

theorem toLower_of_isDigit {c : Char} (h : isDigit c = true) : c.toLower = c := by
  have bounds := isDigit_iff.mp h
  unfold Char.toLower
  rw [dif_neg]
  rintro ⟨lower, -⟩
  have : 65 ≤ c.toNat := UInt32.le_iff_toNat_le.mp lower
  omega

theorem ofList_lowerAscii_ne {c d : Char} {tail word : List Char} (digit : isDigit c = true)
    (letter : isDigit d = false) :
    String.ofList (lowerAscii (c :: tail)) ≠ String.ofList (d :: word) := by
  intro same
  have first := (List.cons.inj (String.ofList_injective same)).1
  rw [toLower_of_isDigit digit] at first
  rw [first, letter] at digit
  cases digit

theorem takeSign_of_digit {c : Char} {tail : List Char} (digit : isDigit c = true) :
    takeSign (c :: tail) = (false, c :: tail) := by
  unfold takeSign
  split
  · next minus =>
    cases minus
    cases digit
  · next plus =>
    cases plus
    cases digit
  · rfl

section

variable {cs rest tail : List Char} {negative : Bool} {c : Char}

theorem readChars?_of_digit (sign : takeSign cs = (negative, rest)) (begins : rest = c :: tail)
    (digit : isDigit c = true) :
    readChars? cs = (unsigned? rest).map fun (n, e) =>
      if negative then -nearestDecimal n e else nearestDecimal n e := by
  have short : String.ofList (lowerAscii rest) ≠ "inf" := by
    rw [begins]
    exact ofList_lowerAscii_ne digit (d := 'i') rfl
  have long : String.ofList (lowerAscii rest) ≠ "infinity" := by
    rw [begins]
    exact ofList_lowerAscii_ne digit (d := 'i') rfl
  have no_number : String.ofList (lowerAscii rest) ≠ "nan" := by
    rw [begins]
    exact ofList_lowerAscii_ne digit (d := 'n') rfl
  unfold readChars?
  rw [sign]
  simp only [short, long, no_number, decide_false, Bool.or_self, Bool.false_eq_true, if_false,
    Option.map_map]
  rfl

end

/-- A signed nearest double is finite unless the number overflows. -/
theorem isFinite_signed_iff (negative : Bool) (n : ℕ) (e : ℤ) :
    (if negative then -nearestDecimal n e else nearestDecimal n e).isFinite = true ↔
      (n * 10 ^ e : ℚ) < overflow := by
  rw [← (isNearest_nearestDecimal n e).isFinite_iff]
  cases negative with
  | false => rfl
  | true => rw [if_pos rfl, isFinite_neg]

end FermiQuiz.Number
