import Mathlib
import FermiQuiz.Proofs.Generation.Added
import FermiQuiz.Proofs.Number.Range
import FermiQuiz.Proofs.Store.Files
import FermiQuiz.Proofs.Store.Records

/-!
# Generations that are saved

A generation can be played exactly if the ratio that each new question asks for is rounded to a
positive double. The numbers of the facts are positive doubles, but their ratio need not be one: a
large one is infinite, which is saved as no number, and a small one is zero.
-/

namespace FermiQuiz

open Number (Elementary overflow underflow)
open Chance
open WorldStep (Succeeds)

/-! ### The ratio that is asked for -/

/-- The ratio of the numbers of two facts before it is rounded. -/
def exactRatio (a b : Fact) : ℚ := Number.value a.quantity.value / Number.value b.quantity.value

section

variable {facts : List Fact} {q : Question} {a b : Fact}

theorem AsksRatio.flaw?_eq_none_iff (asks : AsksRatio q a b) (paired : Paired facts a b) :
    q.flaw? = none ↔ underflow < exactRatio a b ∧ exactRatio a b < overflow := by
  have shown : q.figures ≠ [] := by
    rw [asks.figures]
    simp
  rw [Question.flaw?_eq_none_iff, and_iff_left shown, asks.answer,
    Number.isPositive_div_iff paired.left.positive paired.right.positive]
  rfl

theorem AsksRatio.isFinite_answer_iff (asks : AsksRatio q a b) (paired : Paired facts a b) :
    q.answer.isFinite = true ↔ exactRatio a b < overflow := by
  rw [asks.answer, Number.isFinite_div_iff paired.left.positive paired.right.positive]
  rfl

end

/-! ### What is saved -/

section

variable {σ : Type} [WordSource σ] [Elementary] {facts : List Fact} {existing : List Question}
  {settings : GenerationSettings} {stamp : String} {g : Generation} {s s' : σ}

theorem questions_of_generate (h : generate facts existing settings stamp s = (.ok g, s')) :
    g.questions = existing ++ g.added := by
  rw [Generation.questions, (drawn_of_generate h).1]

/-- What holds of a new question is a condition on the facts that it compares. -/
theorem forall_added_iff {P : Question → Prop} {C : Fact → Fact → Prop}
    (h : generate facts existing settings stamp s = (.ok g, s'))
    (each : ∀ {q a b}, AsksRatio q a b → Paired facts a b → (P q ↔ C a b)) :
    (∀ q ∈ g.added, P q) ↔ ∀ q ∈ g.added, ∃ a b, Paired facts a b ∧ AsksRatio q a b ∧ C a b := by
  obtain ⟨-, -, drawn⟩ := drawn_of_generate h
  constructor
  · intro all q member
    obtain ⟨a, b, paired, made⟩ := drawn.about q member
    have asks : AsksRatio q a b := by
      rw [made]
      exact ⟨rfl, rfl, rfl⟩
    exact ⟨a, b, paired, asks, (each asks paired).mp (all q member)⟩
  · intro all q member
    obtain ⟨a, b, paired, asks, good⟩ := all q member
    exact (each asks paired).mpr good

theorem quality_of_mem_added (h : generate facts existing settings stamp s = (.ok g, s')) :
    ∀ q ∈ g.added, q.quality.isFinite = true := by
  intro q member
  obtain ⟨a, b, -, rfl⟩ := (drawn_of_generate h).2.2.about q member
  change (1.0 : Float).isFinite = true
  decide +kernel

/-- A saved generation is fit to be played, and is loaded again, exactly if no new question asks
for a ratio that is rounded out of the range, and the existing ones are of finite quality. -/
theorem generate_saved {path : String} {w w' : World}
    (h : generate facts existing settings stamp s = (.ok g, s'))
    (fit : ∀ q ∈ existing, q.flaw? = none)
    (saved : (saveQuestions path g.questions : WorldStep Unit).run w = (.ok (), w')) :
    ((∀ q ∈ g.questions, q.flaw? = none) ↔
      ∀ q ∈ g.added, ∃ a b, Paired facts a b ∧ AsksRatio q a b ∧
        underflow < exactRatio a b ∧ exactRatio a b < overflow) ∧
    (Succeeds (loadQuestions path) w' ↔ (∀ q ∈ existing, q.quality.isFinite = true) ∧
      ∀ q ∈ g.added, ∃ a b, Paired facts a b ∧ AsksRatio q a b ∧ exactRatio a b < overflow) ∧
    (Succeeds (loadDataset path) w' ↔ (∀ q ∈ existing, q.quality.isFinite = true) ∧
      ∀ q ∈ g.added, ∃ a b, Paired facts a b ∧ AsksRatio q a b ∧
        underflow < exactRatio a b ∧ exactRatio a b < overflow) := by
  obtain ⟨present, held⟩ := read_of_saveFile saved
  have quality := quality_of_mem_added h
  have fit_added := forall_added_iff h AsksRatio.flaw?_eq_none_iff
  have finite_added := forall_added_iff h AsksRatio.isFinite_answer_iff
  rw [succeeds_loadQuestions_iff present held, succeeds_loadDataset_iff held,
    isSome_readQuestions?_writeQuestions, exists_ofText_writeQuestions_iff,
    questions_of_generate h, ← fit_added, ← finite_added]
  simp only [List.forall_mem_append]
  refine ⟨and_iff_right fit, ?_, ?_⟩
  · refine and_congr (forall₂_congr fun q member => ?_) (forall₂_congr fun q member => ?_)
    · exact and_iff_right (Question.isFinite_answer (fit q member))
    · exact and_iff_left (quality q member)
  · refine and_congr (forall₂_congr fun q member => ?_) (forall₂_congr fun q member => ?_)
    · exact and_iff_right (fit q member)
    · exact and_iff_left (quality q member)

end

/-! ### The greatest and the least of widths -/

def voidFact : Fact where
  quantity := ⟨1e300, "m"⟩
  name := "width of the void"
  measurement := "length"
  thing := "Void"

def pointFact : Fact where
  quantity := ⟨1e-300, "m"⟩
  name := "width of a point"
  measurement := "length"
  thing := "Point"

theorem exactRatio_void_point_outside {a b : Fact} (paired : Paired [voidFact, pointFact] a b) :
    ¬ (underflow < exactRatio a b ∧ exactRatio a b < overflow) := by
  unfold exactRatio
  rw [← Number.isPositive_div_iff paired.left.positive paired.right.positive]
  have apart := paired.thing
  have left := paired.left.mem
  have right := paired.right.mem
  simp only [List.mem_cons, List.not_mem_nil, or_false] at left right
  rcases left with rfl | rfl <;> rcases right with rfl | rfl
  · exact absurd rfl apart
  · decide +kernel
  · decide +kernel
  · exact absurd rfl apart

theorem generate_saved_void_point :
    ∃ (_ : Elementary) (g : Generation) (s' : Stream) (w' : World),
      generate [voidFact, pointFact] [] ⟨1, 1⟩ "now" (Stream.ofSeed 7) = (.ok g, s') ∧
      (saveQuestions "questions.json" g.questions : WorldStep Unit).run emptyWorld = (.ok (), w') ∧
      (¬ ∀ q ∈ g.questions, q.flaw? = none) ∧
      ¬ Succeeds (loadDataset "questions.json") w' := by
  let elementary : Elementary := ⟨Number.steppedLog 10, Float.exp2⟩
  have nonempty : 0 < (poolOf [voidFact, pointFact]).length := by decide +kernel
  obtain ⟨added, s', made⟩ := exists_generate nonempty [] ⟨1, 1⟩ "now" (Stream.ofSeed 7)
  have found : emptyWorld.tree.find "questions.json" = .ok ["home", "questions.json"] := by
    decide +kernel
  obtain ⟨w', saved⟩ : ∃ w', (saveQuestions "questions.json" (Generation.questions ⟨[], added⟩) :
      WorldStep Unit).run emptyWorld = (.ok (), w') :=
    exists_saveFile (by decide +kernel) (by decide +kernel) found (by decide +kernel)
  obtain ⟨q, new⟩ : ∃ q, q ∈ added := by
    refine List.exists_mem_of_length_pos ?_
    rw [length_added_of_one_wanted made (by simp)]
    exact Nat.one_pos
  obtain ⟨playable, -, accepted⟩ := generate_saved made (by simp) saved
  have outside : ¬ ∀ q ∈ added, ∃ a b, Paired [voidFact, pointFact] a b ∧ AsksRatio q a b ∧
      underflow < exactRatio a b ∧ exactRatio a b < overflow := by
    intro all
    obtain ⟨a, b, paired, -, inside⟩ := all q new
    exact exactRatio_void_point_outside paired inside
  exact ⟨elementary, _, s', w', made, saved, fun fit => outside (playable.mp fit),
    fun loaded => outside (accepted.mp loaded).2⟩

end FermiQuiz
