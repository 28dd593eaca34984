import FermiQuiz.Number.Digits

/-!
# The double nearest to a quotient

`nearestBits` rounds a quotient of natural numbers to the nearest double, a tie going to the
even significand, and gives its bits. Beyond the largest double it gives infinity, and small
quotients go to the subnormal grid and then to zero.
-/

namespace FermiQuiz.Number

/-- The `e` with `2 ^ e ≤ num / den < 2 ^ (e + 1)`, for a positive quotient. -/
def binaryExponent (num den : Nat) : Int :=
  let e : Int := num.log2 - den.log2
  if den * Nat.pow 2 e.toNat ≤ num * Nat.pow 2 (-e).toNat then e else e - 1

/-- The bits of positive infinity; the bits of every finite positive double are below. -/
def infinityBits : Nat := 2047 * Nat.pow 2 52

/-- The bits of the double nearest to `num / den`. A significand that rounds up to `2 ^ 53`
carries into the exponent field, which is what the sum does. -/
def nearestBits (num den : Nat) : Nat :=
  if num = 0 then 0
  else
    let e := max (binaryExponent num den - 52) (-1074)
    let significand := roundEven (num * Nat.pow 2 (-e).toNat) (den * Nat.pow 2 e.toNat)
    min ((e + 1074).toNat * Nat.pow 2 52 + significand) infinityBits

def nearest (num den : Nat) : Float := Float.ofBits (nearestBits num den).toUInt64

/-- The double nearest to `n * 10 ^ exponent`. Numbers far outside the range of doubles are
settled by their first power of ten alone. -/
def nearestDecimal (n : Nat) (exponent : Int) : Float :=
  if n = 0 then 0.0
  else
    let top := digitCount n + exponent
    if 310 < top then Float.ofBits infinityBits.toUInt64
    else if top < -330 then 0.0
    else nearest (n * Nat.pow 10 exponent.toNat) (Nat.pow 10 (-exponent).toNat)

end FermiQuiz.Number
