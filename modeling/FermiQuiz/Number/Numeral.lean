import FermiQuiz.Number.Nearest

/-!
# Reading numerals

A numeral is an optional sign, digits with an optional point among or around them, and an
optional exponent; `inf`, `infinity` and `nan` are read in any letter case. `read?` gives the
nearest double; too large a numeral is infinite and too small a one is zero.
-/

namespace FermiQuiz.Number

def takeSign : List Char → Bool × List Char
  | '-' :: cs => (true, cs)
  | '+' :: cs => (false, cs)
  | cs => (false, cs)

/-- The text after the mantissa: nothing, or `e` and a whole number with an optional sign. -/
def exponentPart? : List Char → Option Int
  | [] => some 0
  | c :: cs =>
    if c = 'e' || c = 'E' then
      let (negative, ds) := takeSign cs
      if ds.isEmpty || !ds.all isDigit then none
      else some (if negative then -ofDigits ds else ofDigits ds)
    else none

def unsigned? (cs : List Char) : Option (Nat × Int) :=
  let whole := cs.takeWhile isDigit
  let (fraction, rest) :=
    match cs.dropWhile isDigit with
    | '.' :: rest => (rest.takeWhile isDigit, rest.dropWhile isDigit)
    | rest => ([], rest)
  if whole.isEmpty && fraction.isEmpty then none
  else (exponentPart? rest).map fun e => (ofDigits (whole ++ fraction), e - fraction.length)

def lowerAscii (cs : List Char) : List Char := cs.map Char.toLower

def readChars? (cs : List Char) : Option Float :=
  let (negative, rest) := takeSign cs
  let word := String.ofList (lowerAscii rest)
  let size :=
    if word = "inf" || word = "infinity" then some (1.0 / 0.0)
    else if word = "nan" then some (0.0 / 0.0)
    else (unsigned? rest).map fun (n, e) => nearestDecimal n e
  size.map fun x => if negative then -x else x

/-- The double that a text spells, `none` when the text is no numeral. -/
def read? (s : String) : Option Float := readChars? s.toList

/-- A natural number in decimal digits, with an optional plus sign, below `bound`. -/
def readNat? (bound : Nat) (s : String) : Option Nat :=
  let ds := match s.toList with
    | '+' :: cs => cs
    | cs => cs
  if ds.isEmpty || !ds.all isDigit then none
  else if ofDigits ds < bound then some (ofDigits ds) else none

end FermiQuiz.Number
