import FermiQuiz.Calendar
import FermiQuiz.Chance.Stream

/-!
# Seeds

All randomness of a game comes from one number, its seed. The question and the hints draw from
streams of their own, so that asking for a hint never changes the question.
-/

namespace FermiQuiz

/-- Sets the question's stream apart, and the hint streams of one game from each other. -/
def questionMark : UInt64 := 0x9E3779B97F4A7C15

/-- Sets the hints' streams apart. -/
def hintMark : UInt64 := 0xC2B2AE3D27D4EB4F

/-- The seed of a day, which reads `YYYYMMDD`; years before the first count as zero. -/
def dailySeed (date : Date) : UInt64 :=
  (date.year.toNat * 10000 + date.month * 100 + date.day).toUInt64

def questionSeed (seed : UInt64) : UInt64 := seed ^^^ questionMark

def hintSeed (seed : UInt64) (attempt : UInt32) : UInt64 :=
  seed ^^^ (hintMark + attempt.toUInt64 * questionMark)

def questionStream (seed : UInt64) : Chance.Stream := .ofSeed (questionSeed seed)

def hintStream (seed : UInt64) (attempt : UInt32) : Chance.Stream := .ofSeed (hintSeed seed attempt)

end FermiQuiz
