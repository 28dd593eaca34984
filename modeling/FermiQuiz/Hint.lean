import FermiQuiz.Dataset
import FermiQuiz.Difficulty
import FermiQuiz.Chance.Draw

/-!
# Hints

What a player is told after a guess. A guess of the answer's order of magnitude is correct. To
any other the hint names the direction, and either the number of powers of ten that are missing
or another question whose answer is about the missing factor. `assess` says all that does not
depend on chance; `drawHint` chooses.
-/

namespace FermiQuiz

open Number (Elementary)
open Chance

structure HintSettings where
  /-- The chance that a hint names another question when one is suitable. -/
  closerProbability : Float := 0.6
  /-- How far, in powers of ten, a suitable answer may be from the missing factor. -/
  baseTolerance : Float := 0.5
  /-- How much further for each power of ten that is missing. -/
  toleranceScale : Float := 0.25
  maxTolerance : Float := 2.0
  /-- How many of the easiest suitable questions are drawn from, at least one. -/
  poolSize : Nat := 3

def HintSettings.tolerance (s : HintSettings) (gap : Float) : Float :=
  Number.lesser (s.baseTolerance + s.toleranceScale * gap.abs) s.maxTolerance

inductive Direction where
  | tooHigh
  | tooLow
  deriving DecidableEq, Repr

namespace Direction

def message : Direction → String
  | tooHigh => "Too high!"
  | tooLow => "Too low!"

def adjustment : Direction → String
  | tooHigh => "smaller"
  | tooLow => "bigger"

end Direction

inductive Hint where
  | correct
  /-- The guess is off by about `10 ^ factor`. -/
  | plain (direction : Direction) (factor : Int)
  /-- The guess is off by about the answer to `question`. -/
  | closer (direction : Direction) (question : Question)

namespace Hint

def isCorrect : Hint → Bool
  | correct => true
  | _ => false

def message : Hint → String
  | correct => "Correct!"
  | plain direction factor =>
    direction.message ++ " Try about 10^" ++ String.ofList (Number.integerText factor) ++
      " times " ++ direction.adjustment ++ "."
  | closer direction question =>
    direction.message ++ " You're off by roughly the answer to \"" ++ question.prompt ++ "\"."

end Hint

/-- The powers of ten to name for a gap: the gap rounded, at least one. -/
def gapFactor (gap : Float) : Int := max (Number.roundWithin (-2147483648) 2147483647 gap.abs) 1

/-- What a guess is worth, chance aside. -/
inductive Verdict where
  | correct
  /-- The guess is off by `gap` powers of ten; the questions in `pool` are suitable hints. -/
  | wrong (direction : Direction) (gap : Float) (pool : List Question)

section

variable [Elementary]

/-- The powers of ten from a guess to the answer. -/
def gapBetween (answer guess : Float) : Float := Elementary.log10 answer - Elementary.log10 guess

/-- How far the answer of a question is from a factor of `10 ^ gap`, up or down. -/
def distance (q : Question) (gap : Float) : Float :=
  ((Elementary.log10 q.answer).abs - gap.abs).abs

/-- Whether `q` is a suitable hint for a gap to the answer of `played`: it is about other facts,
under another prompt, and its answer is near the missing factor. -/
def isSuitable (settings : HintSettings) (played : Question) (gap : Float) (q : Question) : Bool :=
  decide (0.0 < q.answer) && q.prompt != played.prompt && q.facts != played.facts &&
    decide (distance q gap ≤ settings.tolerance gap)

def hintPool (settings : HintSettings) (d : Dataset) (played : Question) (gap : Float) :
    List Question :=
  (rankByDifficulty (d.questions.filter (isSuitable settings played gap))).take
    (max settings.poolSize 1)

def assess (settings : HintSettings) (d : Dataset) (played : Question) (guess : Float) :
    Except GameError Verdict :=
  if !Number.isPositive guess then .error (.invalidGuess guess)
  else do
    let guessed ← magnitude guess
    let sought ← magnitude played.answer
    if guessed = sought then return .correct
    let gap := gapBetween played.answer guess
    let direction := if played.answer < guess then Direction.tooHigh else Direction.tooLow
    return .wrong direction gap (hintPool settings d played gap)

end

variable {σ : Type} [WordSource σ]

/-- The hint that a verdict leads to. Chance is asked only after a wrong guess: once for the kind
of hint, and once more for the question when one is named. -/
def Verdict.draw (settings : HintSettings) (v : Verdict) (s : σ) : Hint × σ :=
  match v with
  | .correct => (.correct, s)
  | .wrong direction gap pool =>
    let (roll, s) := unit s
    if h : 0 < pool.length then
      if roll < settings.closerProbability then
        let (q, s) := choose pool h s
        (.closer direction q, s)
      else (.plain direction (gapFactor gap), s)
    else (.plain direction (gapFactor gap), s)

/-- The hint for a guess at `played`, which need not be a question of the dataset. -/
def drawHint [Elementary] (settings : HintSettings) (d : Dataset) (played : Question)
    (guess : Float) (s : σ) : Except GameError Hint × σ :=
  match assess settings d played guess with
  | .error e => (.error e, s)
  | .ok v =>
    let (hint, s) := v.draw settings s
    (.ok hint, s)

end FermiQuiz
