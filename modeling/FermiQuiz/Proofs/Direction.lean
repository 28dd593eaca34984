import Mathlib
import FermiQuiz.Proofs.HintPool
import FermiQuiz.Proofs.Magnitude
import FermiQuiz.Proofs.Verdict

/-!
# The direction of hints

Whether a guess is correct is decided by orders of magnitude, the direction of a hint by the doubles
themselves. The two agree, for the order of magnitude grows with the double.
-/

namespace FermiQuiz

open Number (Elementary isPositive)
open Chance

/-- The direction that a hint names; a correct guess is given none. -/
def Hint.direction? : Hint → Option Direction
  | correct => none
  | plain direction _ => some direction
  | closer direction _ => some direction

theorem directionOf_of_magnitude_ne {answer guess : Float} {m k : ℤ}
    (ha : magnitude answer = .ok m) (hg : magnitude guess = .ok k) (other : k ≠ m) :
    directionOf answer guess = if m < k then .tooHigh else .tooLow := by
  unfold directionOf
  simp only [lt_iff_magnitude_lt ha hg other.symm]

section

variable {σ : Type} [WordSource σ] [Elementary]
variable (settings : HintSettings) (d : Dataset) {played : Question} {guess : Float} {m k : ℤ}

/-- A hint says on which side of the answer's order of magnitude the guess lies, if on any. -/
theorem exists_hint (ha : magnitude played.answer = .ok m) (hg : magnitude guess = .ok k) (s : σ) :
    ∃ hint, (drawHint settings d played guess s).1 = .ok hint ∧
      (hint = .correct ↔ k = m) ∧
      hint.direction? = if k = m then none else if m < k then some .tooHigh else some .tooLow := by
  by_cases same : k = m
  · subst same
    rw [drawHint_of_magnitude_eq settings d hg ha, if_pos rfl]
    exact ⟨.correct, rfl, by simp, rfl⟩
  · have side := directionOf_of_magnitude_ne ha hg same
    rw [if_neg same]
    rcases drawHint_of_magnitude_ne settings d hg ha same s with plain | ⟨-, q, closer⟩
    · refine ⟨_, plain, by simp [same], ?_⟩
      rw [Hint.direction?, side, apply_ite some]
    · refine ⟨_, closer, by simp [same], ?_⟩
      rw [Hint.direction?, side, apply_ite some]

/-- Hints never point the wrong way. A guess is correct exactly if it has the answer's order of
magnitude; to any other the hint says too high or too low, as the orders of magnitude do and the
doubles do. For the order of magnitude grows with the double. -/
theorem drawHint_direction (sought : isPositive played.answer = true)
    (guessed : isPositive guess = true) (s : σ) :
    (∃ m k hint, magnitude played.answer = .ok m ∧ magnitude guess = .ok k ∧
      (drawHint settings d played guess s).1 = .ok hint ∧
      (hint = .correct ↔ k = m) ∧
      (hint.direction? = some .tooHigh ↔ m < k) ∧
      (hint.direction? = some .tooLow ↔ k < m) ∧
      (k ≠ m → (m < k ↔ played.answer < guess) ∧ (k < m ↔ guess < played.answer))) ∧
    ∀ x y : Float, isPositive x = true → isPositive y = true → x ≤ y →
      ∃ m n, magnitude x = .ok m ∧ magnitude y = .ok n ∧ m ≤ n := by
  constructor
  · obtain ⟨m, ha⟩ := exists_magnitude_iff.mpr sought
    obtain ⟨k, hg⟩ := exists_magnitude_iff.mpr guessed
    obtain ⟨hint, drawn, correct, direction⟩ := exists_hint settings d ha hg s
    refine ⟨m, k, hint, ha, hg, drawn, correct, ?_, ?_, fun other => ?_⟩
    · rw [direction]
      split_ifs with same high
      · simp [same]
      · simp [high]
      · simp [high]
    · rw [direction]
      split_ifs with same high
      · simp [same]
      · simp [high.le]
      · exact iff_of_true rfl (by omega)
    · exact ⟨(lt_iff_magnitude_lt ha hg other.symm).symm, (lt_iff_magnitude_lt hg ha other).symm⟩
  · intro x y positive positive' le
    obtain ⟨m, hx⟩ := exists_magnitude_iff.mpr positive
    obtain ⟨n, hy⟩ := exists_magnitude_iff.mpr positive'
    exact ⟨m, n, hx, hy, magnitude_mono hx hy le⟩

end

/-! ### Neighbours at a power of ten -/

def moleQuestion : Question where
  prompt := "How many particles are a sixth of a mole?"
  answer := 1e23
  figures := [{ text := "1 mol", name := "a mole" }]

/-- The double nearest to `10 ^ 23` lies below it, and still the next double below is told that it
is too low. -/
theorem drawHint_direction_below_mole :
    ∃ (_ : Elementary) (hint : Hint),
      Number.value moleQuestion.answer < 10 ^ 23 ∧ (9.999999999999997e22 : Float) < 1e23 ∧
      (drawHint {} townDataset moleQuestion 9.999999999999997e22 (Stream.ofSeed 3)).1 = .ok hint ∧
      hint ≠ .correct ∧ hint.direction? = some .tooLow := by
  let elementary : Elementary := ⟨Number.steppedLog 0, Float.exp2⟩
  have sought : isPositive moleQuestion.answer = true := by decide +kernel
  have guessed : isPositive 9.999999999999997e22 = true := by decide +kernel
  obtain ⟨m, k, hint, ha, hg, drawn, correct, -, low, -⟩ :=
    (drawHint_direction {} townDataset sought guessed (Stream.ofSeed 3)).1
  have answer_magnitude : magnitude moleQuestion.answer = .ok 23 := by rfl
  have guess_magnitude : magnitude 9.999999999999997e22 = .ok 22 := by rfl
  rw [ha] at answer_magnitude
  rw [hg] at guess_magnitude
  cases answer_magnitude
  cases guess_magnitude
  refine ⟨elementary, hint, by decide +kernel, by decide +kernel, drawn, ?_, ?_⟩
  · rw [ne_eq, correct]
    norm_num
  · rw [low]
    norm_num

end FermiQuiz
