import FermiQuiz.Dataset
import FermiQuiz.Chance.Draw
import FermiQuiz.Seed

/-!
# Picking a question

A question drawn evenly from a dataset; the same seed always draws the same.
-/

namespace FermiQuiz

open Chance

/-- A question drawn from a stream. -/
def drawQuestion {σ : Type} [WordSource σ] (d : Dataset) (s : σ) : Except GameError Question × σ :=
  if h : 0 < d.questions.length then
    let (q, s) := choose d.questions h s
    (.ok q, s)
  else (.error .emptyDataset, s)

def seededQuestion (d : Dataset) (seed : UInt64) : Except GameError Question :=
  (drawQuestion d (questionStream seed)).1

def dailyQuestion (d : Dataset) (date : Date) : Except GameError Question :=
  seededQuestion d (dailySeed date)

end FermiQuiz
