import Mathlib
import FermiQuiz.Command.Run
import FermiQuiz.Proofs.Dataset
import FermiQuiz.Proofs.HintPool
import FermiQuiz.Proofs.Verdict

/-!
# Playing an accepted dataset

What is asked of questions when a dataset is made is all that playing needs. An accepted dataset
has a question for every seed unless it is empty, and each of its questions can be guessed at,
revealed and listed.
-/

namespace FermiQuiz

open Number (Elementary isPositive)
open Chance

/-! ### Acceptance -/

/-- What a question needs to be played. -/
structure Question.IsFit (q : Question) : Prop where
  finite : q.answer.isFinite = true
  positive : 0.0 < q.answer
  shown : q.figures ≠ []

theorem Question.isFit_iff {q : Question} : q.IsFit ↔ q.flaw? = none := by
  rw [flaw?_eq_none_iff, isPositive, Bool.and_eq_true, decide_eq_true_eq]
  constructor
  · rintro ⟨finite, positive, shown⟩
    exact ⟨⟨finite, positive⟩, shown⟩
  · rintro ⟨⟨finite, positive⟩, shown⟩
    exact ⟨finite, positive, shown⟩

/-- An unfit answer is named even where the figures are missing too. -/
theorem Question.flaw?_of_not_isFit {q : Question} (unfit : ¬ q.IsFit) :
    q.flaw? = some (if isPositive q.answer then .noFigures else .answer q.answer) := by
  by_cases positive : isPositive q.answer = true
  · have missing : q.figures = [] := by
      by_contra shown
      exact unfit (isFit_iff.mpr (flaw?_eq_none_iff.mpr ⟨positive, shown⟩))
    simp [flaw?, positive, missing]
  · simp [flaw?, positive]

theorem firstFlaw_eq_some_iff {start index : ℕ} {flaw : Flaw} {qs : List Question} :
    firstFlaw start qs = some (index, flaw) ↔ ∃ i q, index = start + i ∧ qs[i]? = some q ∧
      q.flaw? = some flaw ∧ ∀ p ∈ qs.take i, p.flaw? = none := by
  induction qs generalizing start with
  | nil => simp [firstFlaw]
  | cons q qs ih =>
    rw [firstFlaw]
    cases found : q.flaw? with
    | some first =>
      constructor
      · intro same
        cases same
        exact ⟨0, q, rfl, rfl, found, by simp⟩
      · rintro ⟨i, p, rfl, listed, flawed, before⟩
        cases i with
        | zero =>
          cases listed
          rw [found] at flawed
          cases flawed
          rfl
        | succ i =>
          have none := before q (by simp)
          rw [found] at none
          cases none
    | none =>
      dsimp only
      rw [ih]
      constructor
      · rintro ⟨i, p, rfl, listed, flawed, before⟩
        refine ⟨i + 1, p, by omega, listed, flawed, ?_⟩
        rw [List.take_succ_cons]
        exact List.forall_mem_cons.mpr ⟨found, before⟩
      · rintro ⟨i, p, rfl, listed, flawed, before⟩
        cases i with
        | zero =>
          cases listed
          rw [found] at flawed
          cases flawed
        | succ i =>
          rw [List.take_succ_cons] at before
          exact ⟨i, p, by omega, listed, flawed, (List.forall_mem_cons.mp before).2⟩

theorem Dataset.ofQuestions_eq_error_iff {qs : List Question} {e : GameError} :
    Dataset.ofQuestions qs = .error e ↔
      ∃ index flaw, firstFlaw 0 (qs.map Question.normalize) = some (index, flaw) ∧
        e = .invalidQuestion index flaw := by
  unfold Dataset.ofQuestions
  dsimp only
  split
  · next index flaw found =>
    rw [found]
    constructor
    · intro same
      cases same
      exact ⟨index, flaw, rfl, rfl⟩
    · rintro ⟨index', flaw', same, rfl⟩
      cases same
      rfl
  · next none =>
    constructor
    · intro same
      cases same
    · rintro ⟨index, flaw, found, -⟩
      rw [none] at found
      cases found

/-- A list is rejected at its first unfit question. -/
theorem Dataset.ofQuestions_error_at_first {qs : List Question} {e : GameError} :
    Dataset.ofQuestions qs = .error e ↔
      ∃ i q, (qs.map Question.normalize)[i]? = some q ∧ ¬ q.IsFit ∧
        (∀ p ∈ (qs.map Question.normalize).take i, p.IsFit) ∧
        e = .invalidQuestion i (if isPositive q.answer then .noFigures else .answer q.answer) := by
  simp only [ofQuestions_eq_error_iff, firstFlaw_eq_some_iff, zero_add, Question.isFit_iff]
  constructor
  · rintro ⟨index, flaw, ⟨i, q, rfl, listed, flawed, before⟩, rfl⟩
    have unfit : ¬ q.flaw? = none := by simp [flawed]
    rw [Question.flaw?_of_not_isFit (Question.isFit_iff.not.mpr unfit)] at flawed
    cases flawed
    exact ⟨index, q, listed, unfit, before, rfl⟩
  · rintro ⟨i, q, listed, unfit, before, rfl⟩
    exact ⟨i, _, ⟨i, q, rfl, listed,
      Question.flaw?_of_not_isFit (Question.isFit_iff.not.mpr unfit), before⟩, rfl⟩

theorem Dataset.exists_error_iff {qs : List Question} :
    (∃ e, Dataset.ofQuestions qs = .error e) ↔ ∃ q ∈ qs.map Question.normalize, ¬ q.IsFit := by
  have accepted : (∃ d, Dataset.ofQuestions qs = .ok d) ↔
      ∀ q ∈ qs.map Question.normalize, q.IsFit := by
    rw [exists_ofQuestions_iff, List.forall_mem_map]
    simp only [Question.isFit_iff]
    rfl
  have unfit : (∃ q ∈ qs.map Question.normalize, ¬ q.IsFit) ↔
      ¬ ∀ q ∈ qs.map Question.normalize, q.IsFit := by
    push Not
    rfl
  rw [unfit, ← accepted]
  cases Dataset.ofQuestions qs with
  | error e => simp
  | ok d => simp

/-! ### Playing -/

section

variable {d : Dataset}

theorem drawQuestion_of_nonempty {σ : Type} [WordSource σ] (filled : d.questions ≠ []) (s : σ) :
    ∃ q ∈ d.questions, (drawQuestion d s).1 = .ok q := by
  have positive : 0 < d.questions.length := List.length_pos_of_ne_nil filled
  exact ⟨_, choose_mem d.questions positive s, by rw [drawQuestion, dif_pos positive]⟩

theorem drawQuestion_of_empty {σ : Type} [WordSource σ] (empty : d.questions = []) (s : σ) :
    drawQuestion d s = (.error .emptyDataset, s) := by
  rw [drawQuestion, dif_neg (by simp [empty])]

theorem mem_of_seededQuestion {seed : UInt64} {q : Question}
    (drawn : seededQuestion d seed = .ok q) : q ∈ d.questions := by
  by_cases filled : d.questions = []
  · rw [seededQuestion, drawQuestion_of_empty filled] at drawn
    cases drawn
  · obtain ⟨p, member, drawn'⟩ := drawQuestion_of_nonempty filled (questionStream seed)
    rw [seededQuestion, drawn'] at drawn
    cases drawn
    exact member

theorem exists_magnitude {q : Question} (fit : q.flaw? = none) : ∃ m, magnitude q.answer = .ok m :=
  exists_magnitude_iff.mpr (Question.isPositive_answer fit)

/-- A positive guess at a fit question gets a hint. -/
theorem exists_drawHint [Elementary] {σ : Type} [WordSource σ] {q : Question}
    (fit : q.flaw? = none) {guess : Float} (guessed : isPositive guess = true)
    (settings : HintSettings) (d : Dataset) (s : σ) :
    ∃ hint, (drawHint settings d q guess s).1 = .ok hint := by
  obtain ⟨m, ha⟩ := exists_magnitude fit
  obtain ⟨k, hg⟩ := exists_magnitude_iff.mpr guessed
  by_cases same : k = m
  · subst same
    exact ⟨.correct, by rw [drawHint_of_magnitude_eq settings d hg ha]⟩
  · rcases drawHint_of_magnitude_ne settings d hg ha same s with plain | ⟨-, p, closer⟩
    · exact ⟨_, plain⟩
    · exact ⟨_, closer⟩

theorem scientific_of_magnitude {x : Float} {m : ℤ} (h : magnitude x = .ok m) (precision : ℕ) :
    scientific x precision = .ok {
      magnitude := m
      digit := (Number.roundWithin 0 4294967295 (x / Number.powerOfTen m)).toNat
      base := Number.fixedText (max precision 1 - 1) (x / Number.powerOfTen m) } := by
  rw [scientific, h]
  rfl

theorem answerText_of_scientific {x : Float} {s : Scientific} (h : scientific x 2 = .ok s) :
    Command.answerText x = .ok (Number.plainText x ++ " (" ++ s.text ++ ")") := by
  rw [Command.answerText, h]
  rfl

theorem listRow_of_scientific [Elementary] {q : Question} {m : ℤ} {s : Scientific}
    (hm : magnitude q.answer = .ok m) (hs : scientific q.answer 2 = .ok s) :
    Command.listRow q = .ok [q.prompt, s.text, String.ofList (Number.integerText m),
      Number.fixedText 2 (difficulty q)] := by
  rw [Command.listRow, hm, hs]
  rfl

/-- A list of questions is rejected exactly if one of them is unfit, at the first such, for its
answer before its missing figures. Whatever is accepted can be played: only an empty dataset has no
question for a seed, a positive guess at any question gets a hint, and the answer of every question
can be revealed and listed. -/
theorem accepted_dataset_playable (qs : List Question) :
    ((∃ e, Dataset.ofQuestions qs = .error e) ↔
      ∃ q ∈ qs.map Question.normalize, ¬ q.IsFit) ∧
    (∀ e, Dataset.ofQuestions qs = .error e ↔
      ∃ i q, (qs.map Question.normalize)[i]? = some q ∧ ¬ q.IsFit ∧
        (∀ p ∈ (qs.map Question.normalize).take i, p.IsFit) ∧
        e = .invalidQuestion i (if isPositive q.answer then .noFigures else .answer q.answer)) ∧
    ∀ d, Dataset.ofQuestions qs = .ok d →
      (∀ seed, (d.questions = [] → seededQuestion d seed = .error .emptyDataset) ∧
        (d.questions ≠ [] → ∃ q ∈ d.questions, seededQuestion d seed = .ok q)) ∧
      ∀ q ∈ d.questions,
        (∀ (_ : Elementary) (σ : Type) (_ : WordSource σ) (settings : HintSettings) (guess : Float)
          (s : σ), isPositive guess = true →
            ∃ hint, (drawHint settings d q guess s).1 = .ok hint) ∧
        ∃ m, magnitude q.answer = .ok m ∧
          (∀ precision, ∃ s, scientific q.answer precision = .ok s ∧ s.magnitude = m) ∧
          (∃ text, Command.answerText q.answer = .ok text) ∧
          ∀ _ : Elementary, ∃ text, Command.listRow q = .ok [q.prompt, text,
            String.ofList (Number.integerText m), Number.fixedText 2 (difficulty q)] := by
  refine ⟨Dataset.exists_error_iff, fun e => Dataset.ofQuestions_error_at_first, ?_⟩
  intro d _
  refine ⟨fun seed => ⟨fun empty => ?_, fun filled => drawQuestion_of_nonempty filled _⟩, ?_⟩
  · rw [seededQuestion, drawQuestion_of_empty empty]
  · intro q member
    have fit := d.fit q member
    obtain ⟨m, sought⟩ := exists_magnitude fit
    refine ⟨fun _ σ _ settings guess s guessed => exists_drawHint fit guessed settings d s,
      m, sought, fun precision => ⟨_, scientific_of_magnitude sought precision, rfl⟩,
      ⟨_, answerText_of_scientific (scientific_of_magnitude sought 2)⟩,
      fun _ => ⟨_, listRow_of_scientific sought (scientific_of_magnitude sought 2)⟩⟩

end

def unfitQuestion : Question := { townQuestion with answer := -1.0, figures := [] }

/-- A question with an answer below zero and no figures is rejected for its answer. The questions
about a town are accepted, so one of them is asked, guessed at, revealed and listed. -/
theorem questions_about_town_playable :
    Dataset.ofQuestions [townQuestion, unfitQuestion] =
        .error (.invalidQuestion 1 (.answer (-1.0))) ∧
      ∃ d, Dataset.ofQuestions townDataset.questions = .ok d ∧
        ∃ q ∈ d.questions, seededQuestion d 7 = .ok q ∧
          ∃ (_ : Elementary) (hint : Hint) (m : ℤ) (text row : String),
            (drawHint {} d q 1000.0 (Stream.ofSeed 2)).1 = .ok hint ∧
            magnitude q.answer = .ok m ∧ Command.answerText q.answer = .ok text ∧
            Command.listRow q = .ok [q.prompt, row, String.ofList (Number.integerText m),
              Number.fixedText 2 (difficulty q)] := by
  let elementary : Elementary := ⟨Number.steppedLog 0, Float.exp2⟩
  have guessed : isPositive 1000.0 = true := by decide +kernel
  have below : ¬ isPositive unfitQuestion.normalize.answer = true := by decide +kernel
  have fit : townQuestion.normalize.IsFit :=
    Question.isFit_iff.mpr (townDataset.fit townQuestion (by simp [townDataset]))
  have rejected := ((accepted_dataset_playable [townQuestion, unfitQuestion]).2.1 _).mpr
    ⟨1, unfitQuestion.normalize, rfl, fun fit => fit.shown rfl, List.forall_mem_singleton.mpr fit,
      congrArg (GameError.invalidQuestion 1) (if_neg below).symm⟩
  obtain ⟨d, accepted⟩ := Dataset.exists_ofQuestions_iff.mpr townDataset.fit
  have filled : d.questions ≠ [] := by
    rw [Dataset.questions_of_ofQuestions accepted]
    exact List.cons_ne_nil _ _
  obtain ⟨picks, plays⟩ := (accepted_dataset_playable townDataset.questions).2.2 d accepted
  obtain ⟨q, member, picked⟩ := (picks 7).2 filled
  obtain ⟨hints, m, sought, -, ⟨text, revealed⟩, rows⟩ := plays q member
  obtain ⟨hint, drawn⟩ := hints elementary Stream _ {} 1000.0 (Stream.ofSeed 2) guessed
  obtain ⟨row, listed⟩ := rows elementary
  exact ⟨rejected, d, accepted, q, member, picked, elementary, hint, m, text, row, drawn, sought,
    revealed, listed⟩

end FermiQuiz
