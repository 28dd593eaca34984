import Mathlib
import FermiQuiz.Hint
import FermiQuiz.Proofs.FactSet
import FermiQuiz.Proofs.Number.Logarithm
import FermiQuiz.Proofs.Ranking
import FermiQuiz.Proofs.Verdict

/-!
# The questions that serve as hints

A closer hint carries one of the easiest questions of the dataset that suit the gap, and never the
played question or one about the same facts. The pool it is drawn from depends on the questions
alone: a dataset listed in another order gives the same hint.
-/

namespace FermiQuiz

open Number (Elementary)
open Chance

/-! ### What a hint is drawn from -/

section

variable [Elementary] {settings : HintSettings} {d : Dataset} {played : Question} {guess : Float}

theorem assess_wrong {direction : Direction} {gap : Float} {pool : List Question}
    (h : assess settings d played guess = .ok (.wrong direction gap pool)) :
    gap = gapBetween played.answer guess ∧ pool = hintPool settings d played gap := by
  unfold assess at h
  split at h
  · cases h
  · cases hg : magnitude guess with
    | error e => rw [hg] at h; cases h
    | ok guessed =>
      cases hs : magnitude played.answer with
      | error e => rw [hg, hs] at h; cases h
      | ok sought =>
        simp only [hg, hs, bind, Except.bind] at h
        split at h
        · cases h
        · cases h
          exact ⟨rfl, rfl⟩

end

variable {σ : Type} [WordSource σ]

theorem choose_mem {α : Type} (xs : List α) (positive : 0 < xs.length) (s : σ) :
    (choose xs positive s).1 ∈ xs := by
  unfold choose
  generalize below xs.length positive s = drawn
  exact List.get_mem xs drawn.1

theorem draw_closer {settings : HintSettings} {v : Verdict} {s s' : σ} {direction : Direction}
    {q : Question} (h : v.draw settings s = (.closer direction q, s')) :
    ∃ gap pool, v = .wrong direction gap pool ∧ q ∈ pool := by
  cases v with
  | correct => cases h
  | wrong side gap pool =>
    simp only [Verdict.draw] at h
    split at h
    · next positive =>
      have member := choose_mem pool positive (unit s).2
      generalize choose pool positive (unit s).2 = drawn at h member
      split at h
      · cases h
        exact ⟨gap, pool, rfl, member⟩
      · cases h
    · cases h

section

variable [Elementary] {settings : HintSettings} {d : Dataset} {played : Question} {guess : Float}

theorem closer_mem_hintPool {s s' : σ} {direction : Direction} {q : Question}
    (h : drawHint settings d played guess s = (.ok (.closer direction q), s')) :
    q ∈ hintPool settings d played (gapBetween played.answer guess) := by
  unfold drawHint at h
  split at h
  · cases h
  · next v assessed =>
    simp only [Prod.mk.injEq, Except.ok.injEq] at h
    obtain ⟨gap, pool, rfl, member⟩ := draw_closer (Prod.ext h.1 h.2)
    obtain ⟨rfl, rfl⟩ := assess_wrong assessed
    exact member

/-! ### Suitable questions -/

/-- What makes a question a suitable hint: another prompt, other facts, and an answer whose size
is about the missing factor. -/
structure Suits (settings : HintSettings) (played : Question) (guess : Float) (q : Question) :
    Prop where
  prompt : q.prompt ≠ played.prompt
  facts : q.factSet ≠ played.factSet
  size : ((Elementary.log10 q.answer).abs -
      (Elementary.log10 played.answer - Elementary.log10 guess).abs).abs ≤
    settings.tolerance (Elementary.log10 played.answer - Elementary.log10 guess)

theorem isSuitable_iff {q : Question} (fit : q.flaw? = none) :
    isSuitable settings played (gapBetween played.answer guess) q = true ↔
      Suits settings played guess q := by
  have positive : 0.0 < q.answer :=
    of_decide_eq_true (Bool.and_eq_true_iff.mp (Question.isPositive_answer fit)).2
  simp only [isSuitable, positive, decide_true, Bool.true_and, Bool.and_eq_true, bne_iff_ne,
    ne_eq, Question.facts_eq_iff, decide_eq_true_eq]
  constructor
  · rintro ⟨⟨prompt, facts⟩, size⟩
    exact ⟨prompt, facts, size⟩
  · rintro ⟨prompt, facts, size⟩
    exact ⟨⟨prompt, facts⟩, size⟩

instance (q : Question) : Decidable (Suits settings played guess q) :=
  decidable_of_iff (q.prompt ≠ played.prompt ∧ q.factSet ≠ played.factSet ∧
      ((Elementary.log10 q.answer).abs -
        (Elementary.log10 played.answer - Elementary.log10 guess).abs).abs ≤
      settings.tolerance (Elementary.log10 played.answer - Elementary.log10 guess))
    ⟨fun h => ⟨h.1, h.2.1, h.2.2⟩, fun h => ⟨h.prompt, h.facts, h.size⟩⟩

theorem mem_hintPool {q : Question}
    (h : q ∈ hintPool settings d played (gapBetween played.answer guess)) :
    q ∈ d.questions ∧ Suits settings played guess q := by
  have ranked := (rankByDifficulty_perm _).mem_iff.mp (List.mem_of_mem_take h)
  obtain ⟨member, suitable⟩ := List.mem_filter.mp ranked
  exact ⟨member, (isSuitable_iff (d.fit q member)).mp suitable⟩

theorem length_hintPool (settings : HintSettings) (d : Dataset) (played : Question)
    (guess : Float) : (hintPool settings d played (gapBetween played.answer guess)).length =
      min (max settings.poolSize 1)
        (d.questions.countP fun q => decide (Suits settings played guess q)) := by
  rw [hintPool, List.length_take, (rankByDifficulty_perm _).length_eq,
    ← List.countP_eq_length_filter]
  refine congrArg (min _) (List.countP_congr fun q member => ?_)
  rw [isSuitable_iff (d.fit q member), decide_eq_true_eq]

theorem length_hintPool_pos {q : Question} (member : q ∈ d.questions)
    (suits : Suits settings played guess q) :
    0 < (hintPool settings d played (gapBetween played.answer guess)).length := by
  have suitable : 0 < d.questions.countP fun q => decide (Suits settings played guess q) :=
    List.countP_pos_iff.mpr ⟨q, member, decide_eq_true suits⟩
  rw [length_hintPool]
  omega

theorem countP_easier_lt_of_mem_hintPool {q : Question}
    (h : q ∈ hintPool settings d played (gapBetween played.answer guess)) :
    d.questions.countP (fun p => decide (Suits settings played guess p) &&
      compareDifficulty p q == .lt) < max settings.poolSize 1 := by
  have easier := countP_easier_lt h
  rw [List.countP_filter] at easier
  refine (List.countP_congr fun p member => ?_).trans_lt easier
  simp only [Bool.and_eq_true, decide_eq_true_eq, isSuitable_iff (d.fit p member), and_comm]

/-- A closer hint carries a suitable question of the dataset, which is neither the played one nor
that with its figures in another order, and fewer suitable questions are easier than it than the
pool holds. -/
theorem closer_hint_among_easiest_suitable {s s' : σ} {direction : Direction} {q : Question}
    (h : drawHint settings d played guess s = (.ok (.closer direction q), s')) :
    q ∈ d.questions ∧ Suits settings played guess q ∧
      q ≠ played ∧ ¬ q.figures.Perm played.figures ∧
      d.questions.countP (fun p => decide (Suits settings played guess p) &&
        compareDifficulty p q == .lt) ≤ max 1 settings.poolSize - 1 := by
  have pooled := closer_mem_hintPool h
  obtain ⟨member, suits⟩ := mem_hintPool pooled
  refine ⟨member, suits, fun same => suits.prompt (by rw [same]),
    fun perm => suits.facts (Question.factSet_eq_of_perm perm), ?_⟩
  have easier := countP_easier_lt_of_mem_hintPool pooled
  omega

end

/-- A guess of a thousand for the million people of a town leads to one of the two questions about
a thousand that are about something else. -/
theorem closer_hint_to_thousand_for_town :
    ∃ (_ : Elementary) (q : Question) (s' : Stream),
      drawHint {} townDataset townQuestion 1000.0 (Stream.ofSeed 2) =
        (.ok (.closer .tooLow q), s') ∧
      q ∈ townDataset.questions ∧ Suits {} townQuestion 1000.0 q ∧
      q ≠ townQuestion ∧ ¬ q.figures.Perm townQuestion.figures ∧
      townDataset.questions.countP (fun p => decide (Suits {} townQuestion 1000.0 p) &&
        compareDifficulty p q == .lt) ≤ max 1 3 - 1 := by
  let elementary : Elementary := ⟨Number.steppedLog 0, Float.exp2⟩
  have suits : Suits {} townQuestion 1000.0 metreQuestion := by decide +kernel
  have guessed : magnitude 1000.0 = .ok 3 := by rfl
  have sought : magnitude townQuestion.answer = .ok 6 := by rfl
  obtain ⟨q, s', drawn⟩ := exists_closer_hint {} townDataset guessed sought (by norm_num)
    (s := Stream.ofSeed 2)
    (length_hintPool_pos (q := metreQuestion) (by simp [townDataset]) suits) (by decide +kernel)
  exact ⟨elementary, q, s', drawn, closer_hint_among_easiest_suitable drawn⟩

/-! ### Datasets in another order -/

section

variable [Elementary] {settings : HintSettings} {d : Dataset} {played : Question} {guess : Float}

theorem hintPool_eq_of_perm {d' : Dataset} (perm : d.questions.Perm d'.questions)
    (distinct : (d.questions.map Question.prompt).Nodup) (gap : Float) :
    hintPool settings d played gap = hintPool settings d' played gap := by
  unfold hintPool
  rw [rankByDifficulty_eq_of_perm (perm.filter _)
    (distinct.sublist ((List.filter_sublist).map Question.prompt))]

/-- The order in which a dataset lists its questions changes neither the hint nor what is left of
the stream. -/
theorem drawHint_eq_of_perm {d' : Dataset} (perm : d.questions.Perm d'.questions)
    (distinct : (d.questions.map Question.prompt).Nodup) (s : σ) :
    drawHint settings d played guess s = drawHint settings d' played guess s := by
  simp only [drawHint, assess, hintPool_eq_of_perm perm distinct]

end

theorem drawHint_eq_of_reverse_townDataset :
    ∃ d : Dataset, townDataset.questions.Perm d.questions ∧ d.questions ≠ townDataset.questions ∧
      (townDataset.questions.map Question.prompt).Nodup ∧
      drawHint {} townDataset townQuestion 1000.0 (Stream.ofSeed 2) =
        drawHint {} d townQuestion 1000.0 (Stream.ofSeed 2) := by
  have distinct : (townDataset.questions.map Question.prompt).Nodup := by decide +kernel
  let reversed : Dataset :=
    ⟨townDataset.questions.reverse, fun q member =>
      townDataset.fit q (List.mem_reverse.mp member)⟩
  have perm : townDataset.questions.Perm reversed.questions := (List.reverse_perm _).symm
  refine ⟨reversed, perm, fun same => ?_, distinct, drawHint_eq_of_perm perm distinct _⟩
  have prompts := congrArg (List.map Question.prompt) same
  revert prompts
  decide +kernel

end FermiQuiz
