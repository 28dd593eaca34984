import Mathlib
import FermiQuiz.Hint
import FermiQuiz.Proofs.Dataset
import FermiQuiz.Proofs.Magnitude

/-!
# Hints and orders of magnitude

A guess is correct exactly if no power of ten separates it from the answer. To any other the hint
names the direction, and the factor or a question.
-/

namespace FermiQuiz

open Number (Elementary isPositive nearestDecimal)
open Chance

variable {σ : Type} [WordSource σ] [Elementary]
variable (settings : HintSettings) (d : Dataset) {played : Question} {guess : Float} {m k : ℤ}

theorem drawHint_of_magnitude_eq (hg : magnitude guess = .ok m)
    (ha : magnitude played.answer = .ok m) (s : σ) :
    drawHint settings d played guess s = (.ok .correct, s) := by
  have positive := exists_magnitude_iff.mp ⟨m, hg⟩
  have assessed : assess settings d played guess = .ok .correct := by
    simp [assess, positive, hg, ha, bind, Except.bind, pure, Except.pure]
  simp [drawHint, assessed, Verdict.draw]

def directionOf (answer guess : Float) : Direction := if answer < guess then .tooHigh else .tooLow

theorem assess_of_magnitude_ne (hg : magnitude guess = .ok k)
    (ha : magnitude played.answer = .ok m) (other : k ≠ m) :
    assess settings d played guess =
      .ok (.wrong (directionOf played.answer guess) (gapBetween played.answer guess)
        (hintPool settings d played (gapBetween played.answer guess))) := by
  have positive := exists_magnitude_iff.mp ⟨k, hg⟩
  simp [assess, positive, hg, ha, other, directionOf, bind, Except.bind, pure, Except.pure]

/-- A wrong guess is told its direction, and either the factor or a question. -/
theorem drawHint_of_magnitude_ne (hg : magnitude guess = .ok k)
    (ha : magnitude played.answer = .ok m) (other : k ≠ m) (s : σ) :
    (drawHint settings d played guess s).1 =
        .ok (.plain (directionOf played.answer guess) (gapFactor (gapBetween played.answer guess))) ∨
      ((unit s).1 < settings.closerProbability ∧ ∃ q, (drawHint settings d played guess s).1 =
        .ok (.closer (directionOf played.answer guess) q)) := by
  simp only [drawHint, assess_of_magnitude_ne settings d hg ha other, Verdict.draw]
  split
  · next filled =>
    split
    · next rolled =>
      generalize choose _ filled (unit s).2 = drawn
      exact Or.inr ⟨rolled, drawn.1, rfl⟩
    · exact Or.inl rfl
  · exact Or.inl rfl

/-- A wrong guess is told a question when there are suitable ones and the roll is low. -/
theorem exists_closer_hint (hg : magnitude guess = .ok k)
    (ha : magnitude played.answer = .ok m) (other : k ≠ m) {s : σ}
    (filled : 0 < (hintPool settings d played (gapBetween played.answer guess)).length)
    (rolled : (unit s).1 < settings.closerProbability) :
    ∃ q s', drawHint settings d played guess s =
      (.ok (.closer (directionOf played.answer guess) q), s') := by
  simp only [drawHint, assess_of_magnitude_ne settings d hg ha other, Verdict.draw]
  rw [dif_pos filled, if_pos rolled]
  generalize choose _ filled (unit s).2 = drawn
  exact ⟨drawn.1, drawn.2, rfl⟩

/-- A guess at a positive answer is correct exactly if it is positive itself and lies on the same
side of every power of ten. -/
theorem drawHint_correct_iff (sought : isPositive played.answer = true) (s : σ) :
    (drawHint settings d played guess s).1 = .ok .correct ↔ isPositive guess = true ∧
      ∀ k : ℤ, nearestDecimal 1 k ≤ guess ↔ nearestDecimal 1 k ≤ played.answer := by
  obtain ⟨m, ha⟩ := exists_magnitude_iff.mpr sought
  by_cases positive : isPositive guess = true
  · obtain ⟨k, hg⟩ := exists_magnitude_iff.mpr positive
    rw [← magnitude_eq_iff hg ha]
    by_cases same : k = m
    · subst same
      rw [drawHint_of_magnitude_eq settings d hg ha]
      exact iff_of_true rfl ⟨positive, rfl⟩
    · rcases drawHint_of_magnitude_ne settings d hg ha same s with plain | ⟨-, q, closer⟩
      · rw [plain]
        exact iff_of_false (fun h => by cases h) fun h => same h.2
      · rw [closer]
        exact iff_of_false (fun h => by cases h) fun h => same h.2
  · refine iff_of_false (fun h => ?_) fun h => positive h.1
    have assessed : assess settings d played guess = .error (.invalidGuess guess) := by
      simp [assess, positive]
    rw [drawHint, assessed] at h
    cases h

end FermiQuiz
