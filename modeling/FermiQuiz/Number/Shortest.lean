import FermiQuiz.Number.Parts
import FermiQuiz.Number.Digits

/-!
# Shortest decimal digits

The fewest decimal digits that read back as a given double, and of those the nearest to it.
`candidate` looks at the two neighbours of the value on the grid of `n`-digit decimals;
`shortest` takes the first grid of which a neighbour reads back.
-/

namespace FermiQuiz.Number

/-- A decimal `coefficient * 10 ^ scale`. -/
structure Decimal where
  coefficient : Nat
  scale : Int
  deriving DecidableEq, Repr

/-- Where an exact tie between two equally short decimals goes. -/
inductive Tie where
  | up
  | even
  deriving DecidableEq, Repr

namespace Decimal

/-- The significant digits, without trailing zeros. -/
def significant (d : Decimal) : List Char :=
  match ((digits d.coefficient).reverse.dropWhile (· == '0')).reverse with
  | [] => ['0']
  | cs => cs

def exponent (d : Decimal) : Int := d.scale + digitCount d.coefficient - 1

/-- `d` as a numerator over `denominator`. -/
def numerator (d : Decimal) : Nat := d.coefficient * Nat.pow 10 d.scale.toNat

def denominator (d : Decimal) : Nat := Nat.pow 10 (-d.scale).toNat

end Decimal

/-- How far below a double the numbers that round to it begin, in quarters of its last binary
place: half a place, but a quarter below a power of two, where the doubles lie closer. -/
def gapBelow (significand : Nat) (exponent : Int) : Nat :=
  if significand = Nat.pow 2 52 ∧ -1074 < exponent then 1 else 2

/-- Whether `d` rounds to the double `significand * 2 ^ exponent`: it lies between the midpoints
to the neighbouring doubles, which belong to the interval when the significand is even. -/
def readsBack (significand : Nat) (exponent : Int) (d : Decimal) : Bool :=
  let low := numerator (4 * significand - gapBelow significand exponent) exponent * d.denominator
  let high := numerator (4 * significand + 2) exponent * d.denominator
  let here := 4 * d.numerator * denominator exponent
  if significand % 2 = 0 then low ≤ here && here ≤ high else low < here && here < high

/-- The nearer of the value's two neighbours `t` and `t + 1` on the grid `10 ^ scale` that reads
back, if one does. -/
def candidate (tie : Tie) (significand : Nat) (exponent : Int) (scale : Int) : Option Decimal :=
  let num := numerator significand exponent * Nat.pow 10 (-scale).toNat
  let den := denominator exponent * Nat.pow 10 scale.toNat
  let t := num / den
  let twice := 2 * (num % den)
  let lower : Decimal := ⟨t, scale⟩
  let upper : Decimal := ⟨t + 1, scale⟩
  match readsBack significand exponent lower, readsBack significand exponent upper with
  | false, false => none
  | true, false => some lower
  | false, true => some upper
  | true, true =>
    if twice < den then some lower
    else if den < twice then some upper
    else match tie with
      | .up => some upper
      | .even => if t % 2 = 0 then some lower else some upper

/-- The shortest decimal that reads back as the positive double `significand * 2 ^ exponent`.
Seventeen digits always do. -/
def shortest (tie : Tie) (significand : Nat) (exponent : Int) : Decimal :=
  let top := leadingExponent (numerator significand exponent) (denominator exponent)
  let found := (List.range 17).findSome? fun (n : Nat) =>
    candidate tie significand exponent (top - n)
  found.getD ⟨0, 0⟩

end FermiQuiz.Number
