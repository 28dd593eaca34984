import FermiQuiz.Question

/-!
# Derived facts

Fills gaps in a list of facts: a bare `min` or `max` is qualified by its measurement, and a thing
with a mass and a volume but no density gets one.
-/

namespace FermiQuiz

/-- A fact whose specifier is a bare `min` or `max` gets the measurement into it. -/
def Fact.qualify (f : Fact) : Fact :=
  if f.specifier = "min" || f.specifier = "max" then
    { f with specifier := f.specifier ++ " " ++ f.measurement }
  else f

/-- The first fact of a measurement without a specifier. -/
def canonical? (facts : List Fact) (measurement : String) : Option Fact :=
  facts.find? fun f => f.measurement == measurement && f.specifier == ""

def densityOf (thing : String) (mass volume : Fact) : Fact where
  quantity := ⟨mass.quantity.value / volume.quantity.value,
    mass.quantity.units ++ "/" ++ volume.quantity.units⟩
  name := "average density of " ++ thing
  measurement := "density"
  thing := thing
  specifier := "avg"
  note := "auto"

/-- The density that the facts about a thing lack. -/
def missingDensity? (thing : String) (facts : List Fact) : Option Fact :=
  if facts.any (·.measurement == "density") then none
  else do
    let mass ← canonical? facts "mass"
    let volume ← canonical? facts "volume"
    if volume.quantity.value ≤ 0.0 then none else some (densityOf thing mass volume)

def things (facts : List Fact) : List String :=
  ((facts.map Fact.thing).mergeSort fun a b => decide (a ≤ b)).eraseReps

/-- The facts, qualified, followed by the missing densities in the order of their things. -/
def deriveFacts (facts : List Fact) : List Fact :=
  let qualified := facts.map Fact.qualify
  qualified ++ (things qualified).filterMap fun thing =>
    missingDensity? thing (qualified.filter (·.thing == thing))

end FermiQuiz
