import FermiQuiz.Number.Parts
import FermiQuiz.Number.Digits

/-!
# Rounding and comparing doubles

Rounding to whole numbers, the lesser of two doubles, and the total order that also places
NaNs and tells the zeros apart.
-/

namespace FermiQuiz.Number

/-- `x` rounded to a whole number, halves away from zero, kept within `lo` and `hi`. A NaN gives
zero. -/
def roundWithin (lo hi : Int) (x : Float) : Int :=
  match Parts.ofFloat x with
  | .nan => 0
  | .infinite negative => if negative then lo else hi
  | .finite negative significand exponent =>
    let n : Int := roundUp (numerator significand exponent) (denominator exponent)
    max lo (min hi (if negative then -n else n))

/-- The lesser of two doubles; a NaN gives way to the other. -/
def lesser (a b : Float) : Float :=
  if a.isNaN then b else if b < a then b else a

/-- `x` kept within 0 and 1; a NaN stays. -/
def clampUnit (x : Float) : Float :=
  let x := if x < 0.0 then 0.0 else x
  if 1.0 < x then 1.0 else x

/-- The place of a double in the total order: numbers by size, `-0` before `0`, a NaN last. -/
def orderKey (x : Float) : Int :=
  let n := x.toBits.toNat
  if n < Nat.pow 2 63 then n else Nat.pow 2 63 - 1 - n

def totalLe (a b : Float) : Bool := orderKey a ≤ orderKey b

end FermiQuiz.Number
