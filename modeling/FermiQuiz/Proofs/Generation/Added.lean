import Mathlib
import FermiQuiz.Proofs.Generation.Drawing
import FermiQuiz.Proofs.Number.Logarithm

/-!
# The questions a generation adds

A generation keeps the questions there were and adds at most as many as are wanted. Each new one
asks for the ratio of two facts of the list, answers with the quotient of their numbers as it is
asked for, and has a key that no other question has. Only without two comparable facts does a
generation fail.
-/

namespace FermiQuiz

open Number (Elementary)
open Chance

abbrev keysOf (qs : List Question) : Std.HashSet QuestionKey := .ofList (qs.map Question.key)

theorem contains_keysOf {qs : List Question} {key : QuestionKey} :
    (keysOf qs).contains key = (qs.map Question.key).contains key :=
  Std.HashSet.contains_ofList

theorem contains_keysOf_eq_false_iff {qs : List Question} {key : QuestionKey} :
    (keysOf qs).contains key = false ↔ ∀ p ∈ qs, p.key ≠ key := by
  rw [contains_keysOf, ← Bool.not_eq_true, List.contains_iff_mem, List.mem_map]
  constructor
  · intro absent p member same
    exact absent ⟨p, member, same⟩
  · rintro absent ⟨p, member, same⟩
    exact absent p member same

section

variable {σ : Type} [WordSource σ] [Elementary] {facts : List Fact} {existing : List Question}
  {settings : GenerationSettings} {stamp : String} {g : Generation} {s s' : σ}

theorem generate_eq_ok_iff : generate facts existing settings stamp s = (.ok g, s') ↔
    ∃ nonempty : 0 < (poolOf facts).length, g.existing = existing ∧
      drawSeveral (poolOf facts) nonempty stamp settings.maxTries settings.count
        (keysOf existing) s = (.ok g.added, s') := by
  unfold generate
  dsimp only
  by_cases nonempty : 0 < (poolOf facts).length
  · rw [dif_pos nonempty]
    obtain ⟨qs, s₁, drawn, -, -⟩ := drawSeveral_spec nonempty stamp settings.maxTries
      settings.count (keysOf existing) s
    rw [drawn]
    dsimp only
    constructor
    · intro made
      cases made
      exact ⟨nonempty, rfl, drawn⟩
    · rintro ⟨_, rfl, again⟩
      cases drawn.symm.trans again
      rfl
  · rw [dif_neg nonempty]
    constructor
    · intro made
      cases made
    · rintro ⟨positive, -⟩
      exact absurd positive nonempty

theorem exists_generate (nonempty : 0 < (poolOf facts).length) (existing : List Question)
    (settings : GenerationSettings) (stamp : String) (s : σ) :
    ∃ added s', generate facts existing settings stamp s = (.ok ⟨existing, added⟩, s') := by
  obtain ⟨qs, s', drawn, -, -⟩ := drawSeveral_spec nonempty stamp settings.maxTries settings.count
    (keysOf existing) s
  exact ⟨qs, s', generate_eq_ok_iff.mpr ⟨nonempty, rfl, drawn⟩⟩

theorem drawn_of_generate (h : generate facts existing settings stamp s = (.ok g, s')) :
    g.existing = existing ∧ g.added.length ≤ settings.count ∧
      Drawn facts stamp (keysOf existing) g.added := by
  obtain ⟨nonempty, kept, run⟩ := generate_eq_ok_iff.mp h
  obtain ⟨qs, s₁, run', length, drawn⟩ := drawSeveral_spec nonempty stamp settings.maxTries
    settings.count (keysOf existing) s
  cases run.symm.trans run'
  exact ⟨kept, length, drawn⟩

/-- A generation fails exactly if no two facts that can be asked about are comparable, and then
before anything is drawn. What is drawn never fails: numbers that are divided have the same units,
and the divisor is not zero. -/
theorem generate_error_iff :
    (∀ (e : GameError) (s' : σ), generate facts existing settings stamp s = (.error e, s') ↔
      (∀ a b, Askable facts a → Askable facts b → a.comparableWith b = false) ∧
        e = .noComparablePair (facts.filter Fact.isEligible).length ∧ s' = s) ∧
    (∀ left right,
      (generate facts existing settings stamp s).1 ≠ .error (.unitMismatch left right)) ∧
    ∀ x, (generate facts existing settings stamp s).1 ≠ .error (.invalidValue x) := by
  have unpaired : ¬ 0 < (poolOf facts).length ↔
      ∀ a b, Askable facts a → Askable facts b → a.comparableWith b = false := by
    rw [length_sources_pos_iff]
    push Not
    simp only [paired_iff, not_and, Bool.not_eq_true]
  rw [← unpaired]
  by_cases nonempty : 0 < (poolOf facts).length
  · obtain ⟨added, s₁, made⟩ := exists_generate nonempty existing settings stamp s
    simp [made, nonempty]
  · have failed : generate facts existing settings stamp s =
        (.error (.noComparablePair (facts.filter Fact.isEligible).length), s) := dif_neg nonempty
    refine ⟨fun e s' => ?_, ?_, ?_⟩
    · rw [failed, Prod.mk.injEq, Except.error.injEq]
      exact ⟨fun ⟨same, same'⟩ => ⟨nonempty, same.symm, same'.symm⟩,
        fun ⟨_, same, same'⟩ => ⟨same.symm, same'.symm⟩⟩
    · simp [failed]
    · simp [failed]

/-- `q` asks for the ratio of the number of `a` to that of `b`, and its answer is their quotient. -/
structure AsksRatio (q : Question) (a b : Fact) : Prop where
  prompt : q.prompt = "What is the ratio of the *" ++ a.name ++ "* to the *" ++ b.name ++ "*"
  figures : q.figures = [a.figure, b.figure]
  answer : q.answer = a.quantity.value / b.quantity.value

theorem generate_adds (h : generate facts existing settings stamp s = (.ok g, s')) :
    g.questions = existing ++ g.added ∧ g.added.length ≤ settings.count ∧
      (∀ q ∈ g.added, ∃ a b, Paired facts a b ∧ AsksRatio q a b) ∧
      (∀ q ∈ g.added, ∀ p ∈ existing, q.key ≠ p.key) ∧
      (g.added.map Question.key).Nodup := by
  obtain ⟨kept, length, drawn⟩ := drawn_of_generate h
  refine ⟨by rw [Generation.questions, kept], length, ?_, ?_, drawn.distinct⟩
  · intro q member
    obtain ⟨a, b, paired, rfl⟩ := drawn.about q member
    exact ⟨a, b, paired, rfl, rfl, rfl⟩
  · intro q member p listed same
    exact contains_keysOf_eq_false_iff.mp (drawn.new q member) p listed same.symm

/-- One question is found for sure when no pair was asked about before. -/
theorem length_added_of_one_wanted {tries : ℕ}
    (h : generate facts existing ⟨1, tries + 1⟩ stamp s = (.ok g, s'))
    (unasked : ∀ p ∈ existing, p.style ≠ "ratio") : g.added.length = 1 := by
  obtain ⟨nonempty, -, run⟩ := generate_eq_ok_iff.mp h
  have new : ∀ a b, Paired facts a b → (keysOf existing).contains (ratioKey a b) = false := by
    intro a b _
    refine contains_keysOf_eq_false_iff.mpr fun p member same => unasked p member ?_
    exact congrArg QuestionKey.style same
  obtain ⟨a, b, s₁, found, -⟩ := exists_drawNew_of_new nonempty stamp new tries s
  rw [drawSeveral, found] at run
  change (Except.ok [quotientQuestion stamp a b], s₁) = _ at run
  obtain ⟨added, -⟩ := Prod.mk.inj run
  rw [← Except.ok.inj added, List.length_singleton]

end

/-! ### Two lengths -/

def towerFact : Fact where
  quantity := ⟨330.0, "m"⟩
  name := "height of the Eiffel tower"
  measurement := "length"
  thing := "Eiffel tower"

def ballFact : Fact where
  quantity := ⟨0.0427, "m"⟩
  name := "diameter of a golf ball"
  measurement := "length"
  thing := "Golf ball"

/-- To a question of another kind the ratio of two lengths is added. -/
theorem generate_adds_to_townQuestion :
    ∃ (_ : Elementary) (added : List Question) (s' : Stream),
      generate [towerFact, ballFact] [townQuestion] ⟨1, 1⟩ "now" (Stream.ofSeed 7) =
        (.ok ⟨[townQuestion], added⟩, s') ∧
      added.length = 1 ∧
      (∀ q ∈ added, ∃ a b, Paired [towerFact, ballFact] a b ∧ AsksRatio q a b) ∧
      (∀ q ∈ added, ∀ p ∈ [townQuestion], q.key ≠ p.key) ∧
      (added.map Question.key).Nodup := by
  let elementary : Elementary := ⟨Number.steppedLog 10, Float.exp2⟩
  have nonempty : 0 < (poolOf [towerFact, ballFact]).length := by decide +kernel
  obtain ⟨added, s', made⟩ := exists_generate nonempty [townQuestion] ⟨1, 1⟩ "now"
    (Stream.ofSeed 7)
  have one := length_added_of_one_wanted made (by decide)
  obtain ⟨-, -, asks, new, distinct⟩ := generate_adds made
  exact ⟨elementary, added, s', made, one, asks, new, distinct⟩

end FermiQuiz
