import FermiQuiz.Magnitude

/-!
# Quantities

A quantity is a number with units. Quantities in the same units have a ratio; `Quantity.text` is
the short form shown to a player.
-/

namespace FermiQuiz

/-- A number with units; the units are compared as text. -/
structure Quantity where
  value : Float
  units : String := ""

/-- A decimal text without the zeros at its end, nor a point that would then end it. -/
def trimDecimals (s : String) : String :=
  String.ofList ((s.toList.reverse.dropWhile (· == '0')).dropWhile (· == '.')).reverse

/-- A number as shown to a player: three decimals, or scientific notation for what is very small
or large, in both cases without idle zeros. -/
def numberText (x : Float) : String :=
  let size := x.abs
  let fixed := trimDecimals (Number.fixedText 3 x)
  if size != 0.0 && !(1e-3 ≤ size && size < 1e6) then
    match scientific size 3 with
    | .ok s =>
      (if x < 0.0 then "-" else "") ++ trimDecimals s.base ++ "e" ++
        String.ofList (Number.integerText s.magnitude)
    | .error _ => fixed
  else fixed

namespace Quantity

def ratio (a b : Quantity) : Except GameError Float :=
  if a.units != b.units then .error (.unitMismatch a.units b.units)
  else if b.value == 0.0 then .error (.invalidValue b.value)
  else .ok (a.value / b.value)

def text (q : Quantity) : String :=
  if q.units = "" then numberText q.value else numberText q.value ++ " " ++ q.units

end Quantity

end FermiQuiz
