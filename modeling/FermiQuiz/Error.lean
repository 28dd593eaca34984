import FermiQuiz.Number.Text

/-!
# Errors of the game

What can go wrong in the game itself, as causes; `GameError.message` words them.
-/

namespace FermiQuiz

inductive Flaw where
  | answer (value : Float)
  | noFigures

def Flaw.message : Flaw → String
  | answer value => "answer must be positive, got " ++ Number.plainText value
  | noFigures => "question has no values"

inductive GameError where
  | emptyDataset
  /-- No two of the `pool` eligible facts can be compared. -/
  | noComparablePair (pool : Nat)
  | invalidGuess (guess : Float)
  | invalidQuestion (index : Nat) (flaw : Flaw)
  /-- A number that has no order of magnitude, or that nothing can be divided by. -/
  | invalidValue (value : Float)
  | unitMismatch (left right : String)

namespace GameError

def message : GameError → String
  | emptyDataset => "dataset is empty"
  | noComparablePair pool => "no comparable pair among " ++ Number.naturalText pool ++ " values"
  | invalidGuess guess =>
    "invalid guess " ++ Number.plainText guess ++ ": guesses must be positive"
  | invalidQuestion index flaw =>
    "invalid question at index " ++ Number.naturalText index ++ ": " ++ flaw.message
  | invalidValue value => "value " ++ Number.plainText value ++ " has no order of magnitude"
  | unitMismatch left right => "cannot divide " ++ left ++ " by " ++ right

/-- Whether the error lies with the player rather than with the data. -/
def isPlayerError : GameError → Bool
  | invalidGuess _ => true
  | _ => false

end GameError

end FermiQuiz
