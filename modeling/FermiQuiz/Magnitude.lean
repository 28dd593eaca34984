import FermiQuiz.Error
import FermiQuiz.Number.Rounding
import FermiQuiz.Number.Power

/-!
# Orders of magnitude

The order of magnitude of a positive number is the power of ten of the first of its shortest
digits, so a number written as a power of ten has that power. `scientific` splits a number into
its magnitude and the base that is left.
-/

namespace FermiQuiz

/-- The power of ten of the first digit of a positive finite number. -/
def magnitude (x : Float) : Except GameError Int :=
  match Number.Parts.ofFloat x with
  | .finite false significand exponent =>
    if significand = 0 then .error (.invalidValue x)
    else .ok (Number.shortest .up significand exponent).exponent
  | _ => .error (.invalidValue x)

/-- A number in scientific notation, `base × 10^magnitude`. -/
structure Scientific where
  magnitude : Int
  /-- The base rounded to a whole number; it may round up to 10. -/
  digit : Nat
  base : String
  deriving DecidableEq, Repr

def Scientific.text (s : Scientific) : String :=
  s.base ++ " × 10^" ++ String.ofList (Number.integerText s.magnitude)

/-- `x` in scientific notation with `precision` significant digits, at least one. -/
def scientific (x : Float) (precision : Nat) : Except GameError Scientific := do
  let m ← magnitude x
  let base := x / Number.powerOfTen m
  return {
    magnitude := m
    digit := (Number.roundWithin 0 4294967295 base).toNat
    base := Number.fixedText (max precision 1 - 1) base }

end FermiQuiz
