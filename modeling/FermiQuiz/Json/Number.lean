import FermiQuiz.Json.Value
import FermiQuiz.Number.Text
import FermiQuiz.Number.Nearest

/-!
# Numbers in JSON

Writing takes the shortest digits. Reading works in 64 bits: as many digits as fit are collected,
and the double made of them is multiplied or divided by a power of ten, so that what is read may
differ from the nearest double in the last places.
-/

namespace FermiQuiz.Json

open Number

/-! ### Writing -/

/-- The literal of the digits `d₁.d₂… * 10 ^ top`: a decimal with a point, or an exponent when
that would be long. -/
def literal (ds : List Char) (top : Int) : List Char :=
  if -5 ≤ top && top ≤ 15 then
    let body := positional ds top
    if body.contains '.' then body else body ++ ['.', '0']
  else pointed ds ++ 'e' :: (if top < 0 then integerText top else '+' :: integerText top)

/-- A double as a JSON number. What is not finite has no number and is null. -/
def ofFloat (x : Float) : Json :=
  match Parts.ofFloat x with
  | .finite negative significand exponent =>
    let (ds, top) := shortestDigits .even significand exponent
    .number (if negative then '-' :: literal ds top else literal ds top)
  | _ => .null

def ofInt (n : Int) : Json := .number (integerText n)

/-! ### The parts of a literal -/

structure Literal where
  negative : Bool
  whole : List Char
  fraction : List Char
  exponent : Option (Bool × List Char)

def exponent? : List Char → Option (Option (Bool × List Char))
  | [] => some none
  | c :: cs =>
    if c = 'e' || c = 'E' then
      let (negative, ds) := match cs with
        | '-' :: ds => (true, ds)
        | '+' :: ds => (false, ds)
        | ds => (false, ds)
      if ds.isEmpty || !ds.all isDigit then none else some (some (negative, ds))
    else none

/-- The parts of a literal, if it is one: no idle zero in front, and a digit on either side of
the point. -/
def parts? (cs : List Char) : Option Literal :=
  let (negative, cs) := match cs with
    | '-' :: cs => (true, cs)
    | cs => (false, cs)
  let whole := cs.takeWhile isDigit
  let plain := match whole with
    | [] => false
    | ['0'] => true
    | d :: _ => d != '0'
  if !plain then none
  else match cs.dropWhile isDigit with
    | '.' :: rest =>
      let fraction := rest.takeWhile isDigit
      if fraction.isEmpty then none
      else (exponent? (rest.dropWhile isDigit)).map (⟨negative, whole, fraction, ·⟩)
    | rest => (exponent? rest).map (⟨negative, whole, [], ·⟩)

def isLiteral (cs : List Char) : Bool := (parts? cs).isSome

/-! ### Reading -/

def collectorLimit : Nat := 18446744073709551616

/-- A whole part: the digits that fit, and the number of the others, each of which stands for a
power of ten. -/
def collectWhole (significand : Nat) : List Char → Nat × Nat
  | [] => (significand, 0)
  | c :: cs =>
    let more := 10 * significand + (c.toNat - 48)
    if more < collectorLimit then collectWhole more cs else (significand, cs.length + 1)

/-- A fraction: the digits that fit, and how many they are. -/
def collectFraction (significand : Nat) : List Char → Nat × Nat
  | [] => (significand, 0)
  | c :: cs =>
    let more := 10 * significand + (c.toNat - 48)
    if more < collectorLimit then
      let (result, taken) := collectFraction more cs
      (result, taken + 1)
    else (significand, 0)

def tenTo (n : Nat) : Float := nearest (Nat.pow 10 n) 1

/-- So many divisions by `1e308`; zero needs no more of them. -/
def shrink : Nat → Float → Float
  | 0, x => x
  | steps + 1, x => if x == 0.0 then x else shrink steps (x / tenTo 308)

/-- The double of collected digits and a power of ten, unless it is too large. -/
def scale? (significand : Nat) (exponent : Int) : Option Float :=
  let x := significand.toUInt64.toFloat
  if 0 ≤ exponent then
    if exponent ≤ 308 then
      let y := x * tenTo exponent.toNat
      if y.isInf then none else some y
    else if x == 0.0 then some x else none
  else
    let n := (-exponent).toNat
    let steps := (n - 1) / 308
    some (shrink steps x / tenTo (n - 308 * steps))

def exponentLimit : Nat := 2147483647

def Literal.value? (l : Literal) : Option Float :=
  let (significand, dropped) := collectWhole 0 l.whole
  let (significand, taken) := collectFraction significand l.fraction
  let start : Int := dropped - taken
  let size := match l.exponent with
    | none => scale? significand start
    | some (negative, ds) =>
      let e := ofDigits ds
      if exponentLimit < e then
        if negative || significand == 0 then some 0.0 else none
      else scale? significand (if negative then start - e else start + e)
  size.map fun x => if l.negative then -x else x

def float? : Json → Option Float
  | .number cs => (parts? cs).bind Literal.value?
  | _ => none

end FermiQuiz.Json
