import Mathlib
import FermiQuiz.Proofs.Draws
import FermiQuiz.Proofs.Gap
import FermiQuiz.Proofs.HintPool
import FermiQuiz.Proofs.Verdict

/-!
# Following the hints

A player guesses `3 * 10 ^ k` and moves `k` as each hint says: by the factor that a plain hint
names, and by one after a closer hint. A plain hint may lead one power of ten past the answer, or
stop one short of it on the way down, but from there the next hint leads home. So the distance to
the answer need not shrink, but the number of guesses that it may still take always does.
-/

namespace FermiQuiz

open Number (AccurateLog Elementary)
open Chance

/-! ### The player -/

def Direction.move (step k : ℤ) : Direction → ℤ
  | .tooHigh => k - step
  | .tooLow => k + step

namespace Hint

def isCloser : Hint → Bool
  | closer _ _ => true
  | _ => false

/-- Where a hint sends a player who guessed for the order of magnitude `k`; nowhere when the guess
was correct. -/
def follow (k : ℤ) : Hint → Option ℤ
  | correct => none
  | plain direction factor => some (direction.move factor k)
  | closer direction _ => some (direction.move 1 k)

end Hint

/-! ### Distances -/

/-- How a hint changes the distance `m - k` to the answer. A closer hint takes one off it. A plain
hint leads to the answer or one power of ten above it, and from there to the answer. -/
def Approaches (closer : Bool) (distance distance' : ℤ) : Prop :=
  if closer then distance' = distance - distance.sign
  else (distance' = 0 ∨ distance' = -1) ∧ (distance = -1 → distance' = 0)

def guessesFrom (distance : ℤ) : ℕ :=
  if 0 < distance then distance.natAbs + 2 else distance.natAbs + 1

/-- The guesses that a player needs at most who gets no closer hint. -/
def plainGuessesFrom (distance : ℤ) : ℕ :=
  if distance = 0 then 1 else if distance = -1 then 2 else 3

theorem Approaches.guessesFrom_lt {closer : Bool} {distance distance' : ℤ}
    (h : Approaches closer distance distance') (other : distance ≠ 0) :
    guessesFrom distance' < guessesFrom distance := by
  unfold Approaches at h
  unfold guessesFrom
  cases closer
  · simp only [Bool.false_eq_true, if_false] at h
    obtain ⟨rfl | rfl, home⟩ := h
    · rw [if_neg (by norm_num)]
      split <;> omega
    · have far : distance ≠ -1 := fun near => absurd (home near) (by norm_num)
      rw [if_neg (by norm_num)]
      split <;> omega
  · simp only [if_true] at h
    rcases lt_or_gt_of_ne other with below | above
    · rw [Int.sign_eq_neg_one_of_neg below] at h
      rw [if_neg (by omega), if_neg (by omega)]
      omega
    · rw [Int.sign_eq_one_of_pos above] at h
      rw [if_pos above]
      split <;> omega

/-- No hint leads farther away than one power of ten above the answer. -/
theorem Approaches.between {closer : Bool} {distance distance' : ℤ}
    (h : Approaches closer distance distance') (other : distance ≠ 0) :
    min distance (-1) ≤ distance' ∧ distance' ≤ max distance 0 := by
  unfold Approaches at h
  cases closer
  · simp only [Bool.false_eq_true, if_false] at h
    omega
  · simp only [if_true] at h
    rcases lt_or_gt_of_ne other with below | above
    · rw [Int.sign_eq_neg_one_of_neg below] at h
      omega
    · rw [Int.sign_eq_one_of_pos above] at h
      omega

theorem Approaches.plainGuessesFrom_lt {distance distance' : ℤ}
    (h : Approaches false distance distance') (other : distance ≠ 0) :
    plainGuessesFrom distance' < plainGuessesFrom distance := by
  obtain ⟨arrived | beside, home⟩ := h
  · unfold plainGuessesFrom
    rw [if_pos arrived, if_neg other]
    split <;> norm_num
  · have far : distance ≠ -1 := fun near => absurd (home near) (by omega)
    unfold plainGuessesFrom
    rw [if_neg (by omega), if_pos beside, if_neg other, if_neg far]
    norm_num

/-! ### Playing -/

variable {σ : Type} [WordSource σ]

section

variable [Elementary]

/-- The hints of a player who starts at the order of magnitude `k` and follows them, for at most
`limit` guesses. Each attempt has a stream of its own. -/
def play (settings : HintSettings) (d : Dataset) (played : Question) (streams : ℕ → σ) :
    ℕ → ℕ → ℤ → Except GameError (List Hint)
  | 0, _, _ => .ok []
  | limit + 1, attempt, k =>
    match (drawHint settings d played (guessAt k) (streams attempt)).1 with
    | .error e => .error e
    | .ok hint =>
      match hint.follow k with
      | none => .ok [hint]
      | some k' => (play settings d played streams limit (attempt + 1) k').map (hint :: ·)

/-! ### The way to the answer -/

variable (settings : HintSettings) (d : Dataset) {played : Question} {m k : ℤ}

theorem exists_follow (accurate : AccurateLog) (ha : magnitude played.answer = .ok m)
    (lower : -300 ≤ m) (upper : m ≤ 300) (small : k.natAbs ≤ 301) (other : k ≠ m) (s : σ) :
    ∃ hint k', (drawHint settings d played (guessAt k) s).1 = .ok hint ∧
      hint.follow k = some k' ∧ Approaches hint.isCloser (m - k) (m - k') ∧
      (hint.isCloser = true → (unit s).1 < settings.closerProbability) := by
  have hg := magnitude_guessAt small
  have side := answer_lt_guessAt_iff ha lower upper small other
  rcases drawHint_of_magnitude_ne settings d hg ha other s with
    plain | ⟨rolled, q, closer⟩
  · refine ⟨_, _, plain, rfl, ?_, fun h => absurd h Bool.false_ne_true⟩
    rcases lt_or_gt_of_ne other with low | high
    · have factor := gapFactor_of_low accurate ha lower upper small low
      rw [directionOf, if_neg (by rw [side]; omega)]
      simp only [Hint.isCloser, Approaches, Direction.move, Bool.false_eq_true, if_false]
      omega
    · have factor := gapFactor_of_high accurate ha lower upper small high
      rw [directionOf, if_pos (side.mpr high)]
      simp only [Hint.isCloser, Approaches, Direction.move, Bool.false_eq_true, if_false]
      omega
  · refine ⟨_, _, closer, rfl, ?_, fun _ => rolled⟩
    rcases lt_or_gt_of_ne other with low | high
    · rw [directionOf, if_neg (by rw [side]; omega)]
      simp only [Hint.isCloser, Approaches, Direction.move, if_true]
      rw [Int.sign_eq_one_of_pos (by omega)]
      omega
    · rw [directionOf, if_pos (side.mpr high)]
      simp only [Hint.isCloser, Approaches, Direction.move, if_true]
      rw [Int.sign_eq_neg_one_of_neg (by omega)]
      omega

theorem play_spec (accurate : AccurateLog) (ha : magnitude played.answer = .ok m)
    (lower : -300 ≤ m) (upper : m ≤ 300) (streams : ℕ → σ) {limit : ℕ}
    (attempt : ℕ) (left : -300 ≤ k) (right : k ≤ 301) (enough : guessesFrom (m - k) ≤ limit) :
    ∃ hints, play settings d played streams limit attempt k = .ok hints ∧
      hints.getLast? = some .correct ∧ hints.length ≤ guessesFrom (m - k) ∧
      ((∀ hint ∈ hints, hint.isCloser = false) → hints.length ≤ plainGuessesFrom (m - k)) ∧
      (settings.closerProbability ≤ 0.0 → ∀ hint ∈ hints, hint.isCloser = false) := by
  induction limit generalizing attempt k with
  | zero =>
    unfold guessesFrom at enough
    split at enough <;> omega
  | succ limit ih =>
    have small : k.natAbs ≤ 301 := by omega
    rw [play]
    by_cases home : k = m
    · subst home
      rw [drawHint_of_magnitude_eq settings d (magnitude_guessAt small) ha]
      refine ⟨[.correct], rfl, rfl, ?_, fun _ => ?_, fun _ hint member => ?_⟩
      · simp [guessesFrom]
      · simp [plainGuessesFrom]
      · rw [List.mem_singleton.mp member]
        rfl
    · obtain ⟨hint, k', drawn, moved, approaches, rolled⟩ := exists_follow settings d accurate ha
        lower upper small home (streams attempt)
      have fewer := approaches.guessesFrom_lt (by omega)
      have between := approaches.between (by omega)
      obtain ⟨hints, played_on, last, length, plain, never⟩ := ih (k := k')
        (attempt + 1) (by omega) (by omega) (by omega)
      rw [drawn]
      simp only [moved, played_on]
      refine ⟨hint :: hints, rfl, ?_, ?_, fun none_closer => ?_, fun improbable h member => ?_⟩
      · rw [List.getLast?_cons, last]
        rfl
      · rw [List.length_cons]
        omega
      · have first := none_closer hint List.mem_cons_self
        rw [first] at approaches
        have rest := plain fun h member => none_closer h (List.mem_cons_of_mem _ member)
        have fewer_plain := approaches.plainGuessesFrom_lt (by omega)
        rw [List.length_cons]
        omega
      · rcases List.mem_cons.mp member with rfl | member
        · rw [← Bool.not_eq_true]
          exact fun closer => not_unit_lt improbable _ (rolled closer)
        · exact never improbable h member

/-- Every game ends when the hints are followed: after two guesses more than the powers of ten
between the start and the answer, and after three if no closer hint is served. -/
theorem play_ends (accurate : AccurateLog) (ha : magnitude played.answer = .ok m)
    (lower : -300 ≤ m) (upper : m ≤ 300) (left : -300 ≤ k) (right : k ≤ 300) (streams : ℕ → σ)
    {limit : ℕ} (enough : (m - k).natAbs + 2 ≤ limit) :
    ∃ hints, play settings d played streams limit 1 k = .ok hints ∧
      hints.getLast? = some .correct ∧ hints.length ≤ (m - k).natAbs + 2 ∧
      ((∀ hint ∈ hints, hint.isCloser = false) → hints.length ≤ 3) ∧
      (settings.closerProbability ≤ 0.0 → hints.length ≤ 3) := by
  have most : guessesFrom (m - k) ≤ (m - k).natAbs + 2 := by
    unfold guessesFrom
    split <;> omega
  have most_plain : plainGuessesFrom (m - k) ≤ 3 := by
    unfold plainGuessesFrom
    split
    · norm_num
    · split <;> norm_num
  obtain ⟨hints, played_on, last, length, plain, never⟩ := play_spec settings d accurate ha
    lower upper streams 1 left (by omega) (most.trans enough)
  exact ⟨hints, played_on, last, length.trans most, fun none_closer => (plain none_closer).trans
    most_plain, fun improbable => (plain (never improbable)).trans most_plain⟩

end

/-- From a first guess of three a player finds the million people of a town in eight guesses. -/
theorem play_ends_at_town :
    ∃ (_ : Elementary) (hints : List Hint), AccurateLog ∧ magnitude townQuestion.answer = .ok 6 ∧
      play {} townDataset townQuestion (fun attempt => Stream.ofSeed attempt.toUInt64) 8 1 0 =
        .ok hints ∧
      hints.getLast? = some .correct ∧ hints.length ≤ 8 ∧
      ((∀ hint ∈ hints, hint.isCloser = false) → hints.length ≤ 3) := by
  let elementary : Elementary := ⟨Number.steppedLog 10, Float.exp2⟩
  have accurate : AccurateLog := Number.accurateLog_steppedLog Float.exp2
  have sought : magnitude townQuestion.answer = .ok 6 := by rfl
  obtain ⟨hints, played, last, length, plain, -⟩ := play_ends {} townDataset accurate sought
    (by norm_num) (by norm_num) (by norm_num) (by norm_num)
    (fun attempt => Stream.ofSeed attempt.toUInt64) (by decide : ((6 : ℤ) - 0).natAbs + 2 ≤ 8)
  exact ⟨elementary, hints, accurate, sought, played, last, length, plain⟩

end FermiQuiz
