import FermiQuiz.Seed

/-!
# Seeds of a game

A game draws from one stream for its question and from one for each hint. Hints take their seeds
from multiples of an odd mark, which has an inverse among the words, so no two attempts share one.
The one multiple that would meet the question's seed is far beyond the number of any attempt.
-/

namespace FermiQuiz

/-- The inverse of the question's mark, with products taken as words. -/
def inverseMark : UInt64 := 0xF1DE83E19937733D

theorem questionMark_mul_inverseMark : questionMark * inverseMark = 1 := by decide

theorem mul_questionMark_eq_iff {a b : UInt64} : a * questionMark = b ↔ a = b * inverseMark := by
  constructor
  · intro product
    rw [← product, UInt64.mul_assoc, questionMark_mul_inverseMark, UInt64.mul_one]
  · intro quotient
    rw [quotient, UInt64.mul_assoc, UInt64.mul_comm inverseMark, questionMark_mul_inverseMark,
      UInt64.mul_one]

/-- The multiple of the question's mark that leads from the hints' mark back to it. -/
theorem hintMark_add_eq_questionMark_iff {factor : UInt64} :
    hintMark + factor * questionMark = questionMark ↔ factor = 0xF726F5B91796712E := by
  have split : hintMark + (questionMark - hintMark) = questionMark := by decide
  have multiple : (questionMark - hintMark) * inverseMark = 0xF726F5B91796712E := by decide
  calc hintMark + factor * questionMark = questionMark
      ↔ hintMark + factor * questionMark = hintMark + (questionMark - hintMark) := by rw [split]
    _ ↔ factor * questionMark = questionMark - hintMark := UInt64.add_right_inj hintMark
    _ ↔ factor = 0xF726F5B91796712E := by rw [mul_questionMark_eq_iff, multiple]

theorem hintSeed_inj {seed : UInt64} {a b : UInt32} :
    hintSeed seed a = hintSeed seed b ↔ a = b := by
  unfold hintSeed
  rw [UInt64.xor_right_inj, UInt64.add_right_inj, mul_questionMark_eq_iff, UInt64.mul_assoc,
    questionMark_mul_inverseMark, UInt64.mul_one, UInt32.toUInt64_inj]

theorem hintSeed_ne_questionSeed (seed : UInt64) (attempt : UInt32) :
    hintSeed seed attempt ≠ questionSeed seed := by
  intro same
  have factor := hintMark_add_eq_questionMark_iff.mp ((UInt64.xor_right_inj seed).mp same)
  have number := congrArg UInt64.toNat factor
  rw [UInt32.toNat_toUInt64] at number
  have bound : attempt.toNat < 2 ^ 32 := attempt.toNat_lt
  have far : 2 ^ 32 ≤ (0xF726F5B91796712E : UInt64).toNat := by decide
  omega

/-- Within one game no two streams have the same seed, whatever the game's own seed and however many
attempts it takes. -/
theorem seeds_of_game_differ (seed : UInt64) {a b : UInt32} (other : a ≠ b) :
    hintSeed seed a ≠ hintSeed seed b ∧ hintSeed seed a ≠ questionSeed seed ∧
      hintSeed seed b ≠ questionSeed seed :=
  ⟨fun same => other (hintSeed_inj.mp same), hintSeed_ne_questionSeed seed a,
    hintSeed_ne_questionSeed seed b⟩

/-- The last attempt that can be counted follows the first with seeds of their own. -/
theorem seeds_of_far_attempts_differ :
    (0 : UInt32) ≠ 4294967295 ∧ hintSeed 20240101 0 ≠ hintSeed 20240101 4294967295 ∧
      hintSeed 20240101 0 ≠ questionSeed 20240101 ∧
      hintSeed 20240101 4294967295 ≠ questionSeed 20240101 :=
  ⟨by decide, seeds_of_game_differ 20240101 (by decide)⟩

end FermiQuiz
