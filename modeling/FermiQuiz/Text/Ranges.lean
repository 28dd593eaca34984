/-!
# Sets of characters

A set of characters is written as the list of its ranges of code points.
-/

namespace FermiQuiz.Text

/-- Ranges of code points, both ends included, in ascending order. -/
abbrev Ranges := List (Nat × Nat)

def Ranges.contains (ranges : Ranges) (c : Char) : Bool :=
  ranges.any fun (first, last) => first ≤ c.toNat && c.toNat ≤ last

end FermiQuiz.Text
