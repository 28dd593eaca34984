import FermiQuiz.Number.Shortest

/-!
# Numbers as text

The written forms of a double. `plainText` and `exponentText` write the shortest digits that
read back; `fixedText` and `roundedExponentText` write the exact value rounded to a number of
places, a half going to the even digit.
-/

namespace FermiQuiz.Number

/-! ### Where the point goes -/

/-- The digits `d₁d₂…dₙ` of `d₁.d₂…dₙ * 10 ^ exponent` written out with no exponent: zeros fill
the places up to the point. -/
def positional (ds : List Char) (exponent : Int) : List Char :=
  if exponent < 0 then
    '0' :: '.' :: (List.replicate ((-exponent).toNat - 1) '0' ++ ds)
  else
    let whole := exponent.toNat + 1
    let head := ds.take whole ++ List.replicate (whole - ds.length) '0'
    if ds.length ≤ whole then head else head ++ '.' :: ds.drop whole

def pointed : List Char → List Char
  | [] => []
  | [d] => [d]
  | d :: ds => d :: '.' :: ds

def integerText (n : Int) : List Char :=
  if n < 0 then '-' :: digits n.natAbs else digits n.natAbs

/-- The whole number `n` with a point before its last `places` digits; zeros go in front so that
a digit stands before the point. -/
def withPlaces (n places : Nat) : List Char :=
  let ds := digits n
  let padded := List.replicate (places + 1 - ds.length) '0' ++ ds
  let whole := padded.take (padded.length - places)
  if places = 0 then whole else whole ++ '.' :: padded.drop (padded.length - places)

/-! ### Written forms -/

/-- The sign, and the text of what is not a finite number; `finite` writes the rest. -/
def signed (x : Float) (finite : Nat → Int → List Char) : String :=
  let minus (negative : Bool) : List Char := if negative then ['-'] else []
  match Parts.ofFloat x with
  | .nan => "NaN"
  | .infinite negative => String.ofList (minus negative ++ ['i', 'n', 'f'])
  | .finite negative significand exponent =>
    String.ofList (minus negative ++ finite significand exponent)

def shortestDigits (tie : Tie) (significand : Nat) (exponent : Int) : List Char × Int :=
  if significand = 0 then (['0'], 0)
  else
    let d := shortest tie significand exponent
    (d.significant, d.exponent)

/-- The shortest digits with no exponent, whole numbers without a point: `-5`, `0.00000001`. -/
def plainText (x : Float) : String :=
  signed x fun significand exponent =>
    let (ds, top) := shortestDigits .up significand exponent
    positional ds top

/-- The shortest digits with one before the point, and the exponent: `7.728e3`, `1e-7`. -/
def exponentText (x : Float) : String :=
  signed x fun significand exponent =>
    let (ds, top) := shortestDigits .up significand exponent
    pointed ds ++ 'e' :: integerText top

/-- The exact value rounded to `places` decimals. -/
def fixedText (places : Nat) (x : Float) : String :=
  signed x fun significand exponent =>
    let scaled := numerator significand exponent * Nat.pow 10 places
    withPlaces (roundEven scaled (denominator exponent)) places

/-- A positive quotient rounded to `places + 1` significant digits, and the power of ten of the
first digit. -/
def roundedDigits (places : Nat) (num den : Nat) : List Char × Int :=
  let top := leadingExponent num den
  let shift := top - places
  let n := roundEven (num * Nat.pow 10 (-shift).toNat) (den * Nat.pow 10 shift.toNat)
  if n = Nat.pow 10 (places + 1) then (digits (Nat.pow 10 places), top + 1) else (digits n, top)

/-- The exact value with one digit before the point, `places` after it, and the exponent. -/
def roundedExponentText (places : Nat) (x : Float) : String :=
  signed x fun significand exponent =>
    let (ds, top) :=
      if significand = 0 then (List.replicate (places + 1) '0', 0)
      else roundedDigits places (numerator significand exponent) (denominator exponent)
    pointed ds ++ 'e' :: integerText top

end FermiQuiz.Number
