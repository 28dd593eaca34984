/-!
# The parts of a double

`Parts.ofFloat` takes a double apart. A finite one is exactly
`± significand * 2 ^ exponent`; `numerator` and `denominator` give that magnitude as a
quotient of natural numbers, in which all text work is done.
-/

namespace FermiQuiz.Number

inductive Parts where
  | nan
  | infinite (negative : Bool)
  | finite (negative : Bool) (significand : Nat) (exponent : Int)
  deriving DecidableEq, Repr

namespace Parts

def ofBits (bits : UInt64) : Parts :=
  let n := bits.toNat
  let negative := decide (Nat.pow 2 63 ≤ n)
  let field := n / Nat.pow 2 52 % Nat.pow 2 11
  let fraction := n % Nat.pow 2 52
  if field = 2047 then
    if fraction = 0 then infinite negative else nan
  else if field = 0 then finite negative fraction (-1074)
  else finite negative (Nat.pow 2 52 + fraction) (Int.ofNat field - 1075)

def ofFloat (x : Float) : Parts := ofBits x.toBits

end Parts

def numerator (significand : Nat) (exponent : Int) : Nat :=
  significand * Nat.pow 2 exponent.toNat

def denominator (exponent : Int) : Nat :=
  Nat.pow 2 (-exponent).toNat

theorem denominator_pos (exponent : Int) : 0 < denominator exponent :=
  Nat.two_pow_pos _

/-- A positive number that is neither infinite nor a NaN: what an answer or a guess has to be. -/
def isPositive (x : Float) : Bool := x.isFinite && 0.0 < x

end FermiQuiz.Number
