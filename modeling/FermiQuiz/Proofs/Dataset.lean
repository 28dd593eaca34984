import Mathlib
import FermiQuiz.Dataset
import FermiQuiz.Store.Records

/-!
# Datasets that are accepted

A list of questions makes a dataset exactly if each question is fit to be played.
-/

namespace FermiQuiz

theorem Question.flaw?_eq_none_iff {q : Question} :
    q.flaw? = none ↔ Number.isPositive q.answer = true ∧ q.figures ≠ [] := by
  unfold flaw?
  cases Number.isPositive q.answer with
  | false => simp
  | true => cases q.figures <;> simp

theorem Question.isPositive_answer {q : Question} (fit : q.flaw? = none) :
    Number.isPositive q.answer = true :=
  (flaw?_eq_none_iff.mp fit).1

theorem Question.isFinite_answer {q : Question} (fit : q.flaw? = none) :
    q.answer.isFinite = true :=
  (Bool.and_eq_true_iff.mp (isPositive_answer fit)).1

theorem firstFlaw_eq_none_iff {index : ℕ} {qs : List Question} :
    firstFlaw index qs = none ↔ ∀ q ∈ qs, q.flaw? = none := by
  refine ⟨flaw?_eq_none_of_firstFlaw, ?_⟩
  induction qs generalizing index with
  | nil => exact fun _ => rfl
  | cons q qs ih =>
    intro fit
    rw [firstFlaw, fit q List.mem_cons_self]
    exact ih fun p member => fit p (List.mem_cons_of_mem q member)

theorem Dataset.questions_of_ofQuestions {qs : List Question} {d : Dataset}
    (h : Dataset.ofQuestions qs = .ok d) : d.questions = qs.map Question.normalize := by
  unfold Dataset.ofQuestions at h
  simp only at h
  split at h
  · cases h
  · cases h
    rfl

/-- Cleaning a prompt makes no question fit or unfit. -/
theorem Dataset.exists_ofQuestions_iff {qs : List Question} :
    (∃ d, Dataset.ofQuestions qs = .ok d) ↔ ∀ q ∈ qs, q.flaw? = none := by
  have cleaned : firstFlaw 0 (qs.map Question.normalize) = none ↔ ∀ q ∈ qs, q.flaw? = none := by
    rw [firstFlaw_eq_none_iff, List.forall_mem_map]
    rfl
  rw [← cleaned]
  unfold Dataset.ofQuestions
  dsimp only
  split
  · next index flaw unfit => simp [unfit]
  · next fit => simp [fit]

theorem Dataset.exists_read_of_ofText {document : String} {d : Dataset}
    (h : Dataset.ofText document = .ok d) :
    ∃ qs, readQuestions? document = some qs ∧ d.questions = qs.map Question.normalize := by
  unfold Dataset.ofText at h
  split at h
  · cases h
  · next qs read =>
    split at h
    · cases h
    · next made =>
      cases h
      exact ⟨qs, read, Dataset.questions_of_ofQuestions made⟩

/-! ### A dataset -/

def townQuestion : Question where
  prompt := "How many people live in a town?"
  answer := 1000000.0
  figures := [{ text := "a million", name := "a town" }, { text := "one", name := "a person" }]

def personQuestion : Question :=
  { townQuestion with
    prompt := "Into how many of its parts does a town fall?"
    answer := 1000.0
    figures := townQuestion.figures.reverse }

def metreQuestion : Question where
  prompt := "How many metres are a kilometre?"
  answer := 1000.0
  figures := [{ text := "1 km", name := "a kilometre" }, { text := "1 m", name := "a metre" }]

def gramQuestion : Question where
  prompt := "How many grams does a kilogram weigh?"
  answer := 1000.0
  figures := [{ text := "1 kg", name := "a kilogram" }, { text := "1 g", name := "a gram" }]

def townDataset : Dataset :=
  ⟨[townQuestion, personQuestion, gramQuestion, metreQuestion], by decide +kernel⟩

end FermiQuiz
