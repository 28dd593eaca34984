import Mathlib
import FermiQuiz.Difficulty
import FermiQuiz.Proofs.HintPool
import FermiQuiz.Proofs.Number.Monotone

/-!
# Difficulty

Unless the quality is a NaN, the difficulty of a question is within 0 and 1. It does not rise with
the quality, and does not fall as the prompt gets words or as the answer gets farther from one. Each
of its shares is within 0 and 1, and weighing them respects the order in spite of the rounding. The
three weights themselves add up to the double before 1.
-/

namespace FermiQuiz

open Number (Climbs Elementary infinityBits isPositive)
open Text (isBlank wordCount wordsFrom)

/-! ### Words -/

theorem Text.wordsFrom_true_le (cs : List Char) : wordsFrom true cs ≤ wordsFrom false cs := by
  cases cs with
  | nil => exact le_rfl
  | cons c cs =>
    simp only [wordsFrom]
    split <;> simp

theorem Text.wordsFrom_append_le (within : Bool) (cs ds : List Char) :
    wordsFrom within (cs ++ ds) ≤ wordsFrom within cs + wordsFrom false ds := by
  induction cs generalizing within with
  | nil =>
    cases within
    · exact Nat.le_add_left _ _
    · exact (wordsFrom_true_le ds).trans (Nat.le_add_left _ _)
  | cons c cs ih =>
    simp only [List.cons_append, wordsFrom]
    split
    · exact ih false
    · split
      · exact ih true
      · have := ih true
        omega

theorem Text.wordsFrom_append_blank (within : Bool) (cs ds : List Char) {c : Char}
    (blank : isBlank c = true) :
    wordsFrom within (cs ++ c :: ds) = wordsFrom within cs + wordsFrom false ds := by
  induction cs generalizing within with
  | nil => simp [wordsFrom, blank]
  | cons d cs ih =>
    simp only [List.cons_append, wordsFrom, ih]
    split
    · rfl
    · split <;> omega

/-- Setting words apart into a text keeps the words that were there. -/
theorem Text.wordCount_insert (before added after : String) :
    wordCount (before ++ after) ≤ wordCount (before ++ " " ++ added ++ " " ++ after) := by
  have blank : isBlank ' ' = true := by decide
  have space : " ".toList = [' '] := rfl
  simp only [wordCount, String.toList_append, space, List.append_assoc, List.cons_append,
    List.nil_append, wordsFrom_append_blank _ _ _ blank]
  have := wordsFrom_append_le false before.toList after.toList
  omega

/-! ### Shares -/

/-- A ratio that counts up to 1. -/
theorem climbs_lesser_one {x y c : Float} (hc : isPositive c = true)
    (le : x.toBits.toNat ≤ y.toBits.toNat) (hy : y.toBits.toNat ≤ infinityBits) :
    Climbs (Number.lesser (x / c) 1.0) (Number.lesser (y / c) 1.0) 1.0 := by
  have one : (1.0 : Float).toBits.toNat ≤ infinityBits := by decide
  have lower := Number.bits_div_le hc le hy
  have upper := Number.bits_div_le_infinityBits hc hy
  refine ⟨?_, ?_, by decide⟩
  · rw [Number.bits_lesser (lower.trans upper) one, Number.bits_lesser upper one]
    exact min_le_min_right _ lower
  · rw [Number.bits_lesser upper one]
    exact min_le_right _ _

theorem climbs_one : Climbs 1.0 1.0 1.0 := ⟨le_rfl, le_rfl, by decide⟩

theorem climbs_wordiness {m n : ℕ} (le : m ≤ n) : Climbs (wordiness m) (wordiness n) 1.0 := by
  have few := Number.isNearest_ofNat m
  have many := Number.isNearest_ofNat n
  exact climbs_lesser_one (by decide) (few.bits_mono many (Nat.cast_le.mpr le)) many.bits_le

theorem climbs_obscurity {x y : Float} (le : x ≤ y) :
    Climbs (obscurity y) (obscurity x) 1.0 := Number.climbs_one_sub_clampUnit le

section

variable [Elementary]

theorem spread_of_isPositive {x : Float} (h : isPositive x = true) :
    spread x = Number.lesser ((Elementary.log10 x).abs / 20.0) 1.0 := by
  rw [isPositive, Bool.and_comm] at h
  rw [spread, if_pos h]

theorem climbs_spread_self (x : Float) : Climbs (spread x) (spread x) 1.0 := by
  by_cases positive : isPositive x = true
  · rw [spread_of_isPositive positive]
    by_cases nan : (Elementary.log10 x).isNaN = true
    · have abs := (Number.isNaN_abs (Elementary.log10 x)).trans nan
      rw [Number.lesser, if_pos (Number.isNaN_div abs)]
      exact climbs_one
    · have bound := Number.bits_abs_le (Bool.eq_false_iff.mpr nan)
      exact climbs_lesser_one (by decide) le_rfl bound
  · rw [isPositive, Bool.and_comm] at positive
    rw [spread, if_neg positive]
    exact climbs_one

theorem climbs_spread {x y : Float} (hx : isPositive x = true) (hy : isPositive y = true)
    (le : (Elementary.log10 x).abs ≤ (Elementary.log10 y).abs) :
    Climbs (spread x) (spread y) 1.0 := by
  obtain ⟨number, number'⟩ := Number.isNaN_of_le le
  rw [Number.isNaN_abs] at number number'
  have bx := Number.bits_abs_le number
  have yb := Number.bits_abs_le number'
  rw [Number.le_iff_bits_le bx yb] at le
  rw [spread_of_isPositive hx, spread_of_isPositive hy]
  exact climbs_lesser_one (by decide) le yb

end

/-! ### The weighted sum -/

def weighed (s o w : Float) : Float := 0.6 * s + 0.3 * o + 0.1 * w

theorem Number.Climbs.weighed {s s' o o' w w' : Float} (spread : Climbs s s' 1.0)
    (obscurity : Climbs o o' 1.0) (wordiness : Climbs w w' 1.0) :
    Climbs (weighed s o w) (weighed s' o' w') (weighed 1.0 1.0 1.0) := by
  have first : Climbs (0.6 * s) (0.6 * s') (0.6 * 1.0) := spread.mul (by decide) (by decide)
  have second : Climbs (0.3 * o) (0.3 * o') (0.3 * 1.0) := obscurity.mul (by decide) (by decide)
  have third : Climbs (0.1 * w) (0.1 * w') (0.1 * 1.0) := wordiness.mul (by decide) (by decide)
  exact (first.add second (by decide)).add third (by decide)

section

variable [Elementary]

theorem difficulty_eq (q : Question) : difficulty q =
    weighed (spread q.answer) (obscurity q.quality) (wordiness (wordCount q.prompt)) := rfl

/-- The difficulty is within 0 and 1; better quality does not raise it, and neither more words nor
an answer farther from one lower it. -/
theorem difficulty_monotone_within_unit (q : Question) (number : q.quality.isNaN = false) :
    (0.0 ≤ difficulty q ∧ difficulty q ≤ 1.0) ∧
      (∀ quality, q.quality ≤ quality → difficulty { q with quality } ≤ difficulty q) ∧
      (∀ prompt, wordCount q.prompt ≤ wordCount prompt →
        difficulty q ≤ difficulty { q with prompt }) ∧
      (∀ before added after, q.prompt = before ++ after →
        difficulty q ≤ difficulty { q with prompt := before ++ " " ++ added ++ " " ++ after }) ∧
      ∀ answer, isPositive q.answer = true → isPositive answer = true →
        (Elementary.log10 q.answer).abs ≤ (Elementary.log10 answer).abs →
        difficulty q ≤ difficulty { q with answer } := by
  have same : q.quality ≤ q.quality := (Number.le_iff_rank_le number number).mpr le_rfl
  have spread := climbs_spread_self q.answer
  have obscurity := climbs_obscurity same
  have wordiness := climbs_wordiness (le_refl (wordCount q.prompt))
  have words (prompt : String) (le : wordCount q.prompt ≤ wordCount prompt) :
      difficulty q ≤ difficulty { q with prompt } := by
    rw [difficulty_eq, difficulty_eq]
    exact (spread.weighed obscurity (climbs_wordiness le)).le
  refine ⟨?_, ?_, words, ?_, ?_⟩
  · have whole := spread.weighed obscurity wordiness
    have top : (weighed 1.0 1.0 1.0).toBits.toNat ≤ (1.0 : Float).toBits.toNat := by decide
    have finite : (1.0 : Float).toBits.toNat ≤ infinityBits := by decide
    have bound := whole.upper.trans top
    rw [difficulty_eq]
    exact ⟨whole.zero_le, (Number.le_iff_bits_le (bound.trans finite) finite).mpr bound⟩
  · intro quality le
    rw [difficulty_eq, difficulty_eq]
    exact (spread.weighed (climbs_obscurity le) wordiness).le
  · intro before added after whole
    apply words
    rw [whole]
    exact Text.wordCount_insert before added after
  · intro answer hx hy le
    rw [difficulty_eq, difficulty_eq]
    exact ((climbs_spread hx hy le).weighed obscurity wordiness).le

end

theorem difficulty_monotone_of_town :
    ∃ (_ : Elementary) (q : Question), q.prompt = townQuestion.prompt ∧ q.quality.isNaN = false ∧
      (0.0 ≤ difficulty q ∧ difficulty q ≤ 1.0) ∧
      difficulty { q with quality := 0.9 } ≤ difficulty q ∧
      difficulty q ≤ difficulty { q with prompt := "How many people live by day in a town?" } ∧
      difficulty q ≤ difficulty { q with answer := 1000000000.0 } := by
  let elementary : Elementary := ⟨Number.steppedLog 0, Float.exp2⟩
  let q : Question := { townQuestion with quality := 0.5 }
  obtain ⟨bounds, better, longer, -, farther⟩ := difficulty_monotone_within_unit q (by decide)
  exact ⟨elementary, q, rfl, by decide, bounds, better 0.9 (by decide),
    longer "How many people live by day in a town?" (by decide),
    farther 1000000000.0 (by decide) (by decide) (by decide +kernel)⟩

end FermiQuiz
