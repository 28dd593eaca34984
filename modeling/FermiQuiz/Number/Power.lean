/-!
# Powers and logarithms of doubles

`powerOfTen` multiplies repeatedly squared tens, so it is not the nearest double for every
exponent. The logarithm and the power of two come from the platform; `Elementary` holds them, so
that a statement can say what it needs of them.
-/

namespace FermiQuiz.Number

/-- `10 ^ n` as the product of the squarings `10, 10², 10⁴, …` that the bits of `n` select. -/
def tenToThe (n : Nat) : Float :=
  let step (state : Float × Float) (i : Nat) : Float × Float :=
    let (product, square) := state
    (if n.testBit i then product * square else product, square * square)
  ((List.range (n.log2 + 1)).foldl step (1.0, 10.0)).1

/-- `10 ^ n`; a negative power is the reciprocal of the positive one. -/
def powerOfTen (n : Int) : Float :=
  if n < 0 then 1.0 / tenToThe n.natAbs else tenToThe n.natAbs

/-- The elementary functions that the platform supplies. -/
class Elementary where
  log10 : Float → Float
  exp2 : Float → Float

instance : Elementary := ⟨Float.log10, fun x => Float.pow 2.0 x⟩

end FermiQuiz.Number
