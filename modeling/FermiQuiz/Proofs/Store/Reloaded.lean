import Mathlib
import FermiQuiz.Proofs.Dataset
import FermiQuiz.Proofs.Prompt
import FermiQuiz.Proofs.Store.Files
import FermiQuiz.Proofs.Store.Records

/-!
# Datasets that are loaded again

A dataset that is loaded again has its prompts cleaned once more. It stays as it is unless a prompt
hid a mark when it was loaded first, and a saved dataset then keeps its prompts.
-/

namespace FermiQuiz

open Question (IsMarked HidesMark cleanPrompt)

theorem map_normalize_eq_iff {qs : List Question} :
    qs.map Question.normalize = qs ↔ ∀ q ∈ qs, cleanPrompt q.prompt = q.prompt := by
  conv_lhs => rhs; rw [← List.map_id qs]
  rw [List.map_inj_left]
  refine forall₂_congr fun q _ => ?_
  constructor
  · intro same
    exact congrArg Question.prompt same
  · intro same
    rw [Question.normalize, same]
    rfl

/-- The clean prompts of a list stay as they are exactly if none of the prompts hid a mark. -/
theorem clean_of_normalize_iff {qs : List Question} :
    (∀ q ∈ qs.map Question.normalize, cleanPrompt q.prompt = q.prompt) ↔
      ∀ q ∈ qs, ¬ HidesMark q.prompt := by
  rw [List.forall_mem_map]
  refine forall₂_congr fun q _ => ?_
  rw [← Question.isMarked_cleanPrompt_iff]
  exact Question.cleanPrompt_cleanPrompt_eq_iff

/-! ### Saved prompts -/

theorem Question.prompt_of_ofJson? {q p : Question} (read : ofJson? q.toJson = some p) :
    p.prompt = q.prompt := by
  rw [ofJson?_toJson] at read
  obtain ⟨answer, -, read⟩ := Option.bind_eq_some_iff.mp read
  obtain ⟨quality, -, made⟩ := Option.bind_eq_some_iff.mp read
  cases made
  rfl

theorem prompts_of_readQuestions? {qs ps : List Question}
    (read : readQuestions? (writeQuestions qs) = some ps) :
    ps.map Question.prompt = (sortWritten qs).map Question.prompt := by
  rw [readQuestions?_writeQuestions, mapM_eq_some_iff] at read
  generalize sortWritten qs = sorted at read ⊢
  induction read with
  | nil => rfl
  | cons first _ ih => rw [List.map_cons, List.map_cons, ih, Question.prompt_of_ofJson? first]

/-- What both loaders find after a dataset was saved: its questions in the order in which they are
written, with the prompts cleaned again. -/
theorem load_of_saveQuestions {path : String} {w w' : World} {qs : List Question}
    (fit : ∀ q ∈ qs, q.flaw? = none ∧ q.quality.isFinite = true)
    (saved : (saveQuestions path qs : WorldStep Unit).run w = (.ok (), w')) :
    ∃ d, (loadDataset path : WorldStep Dataset).run w' = (.ok d, w') ∧
      (loadQuestions path : WorldStep (List Question)).run w' = (.ok d.questions, w') ∧
      d.questions.map Question.prompt = (sortWritten qs).map fun q => cleanPrompt q.prompt := by
  obtain ⟨present, held⟩ := read_of_saveFile saved
  obtain ⟨d, accepted⟩ := exists_ofText_writeQuestions_iff.mpr fit
  obtain ⟨ps, read, questions⟩ := Dataset.exists_read_of_ofText accepted
  refine ⟨d, ?_, ?_, ?_⟩
  · rw [run_loadDataset held, accepted]
    rfl
  · have listed : (loadList "questions" readQuestions? path : WorldStep (List Question)).run w' = _ :=
      run_loadList present held
    rw [read] at listed
    unfold loadQuestions
    rw [WorldStep.run_bind_of_ok listed, questions]
    rfl
  · have clean : (Question.prompt ∘ Question.normalize) = cleanPrompt ∘ Question.prompt := rfl
    rw [questions, List.map_map, clean, ← List.map_map, prompts_of_readQuestions? read,
      List.map_map]
    rfl

/-- The questions of a dataset make a dataset again. That no prompt of it is marked, that it is the
same dataset again, and that it keeps its prompts when it is saved and loaded, each hold exactly if
no prompt of the list hid a mark. -/
theorem Dataset.ofQuestions_again {qs : List Question} {d : Dataset}
    (accepted : Dataset.ofQuestions qs = .ok d) :
    ((∀ q ∈ d.questions, ¬ IsMarked q.prompt) ↔ ∀ q ∈ qs, ¬ HidesMark q.prompt) ∧
    (∃ d', Dataset.ofQuestions d.questions = .ok d' ∧
      (d' = d ↔ ∀ q ∈ qs, ¬ HidesMark q.prompt)) ∧
    ∀ (path : String) (w w' : World), (∀ q ∈ d.questions, q.quality.isFinite = true) →
      (saveQuestions path d.questions : WorldStep Unit).run w = (.ok (), w') →
      ∃ d', (loadDataset path : WorldStep Dataset).run w' = (.ok d', w') ∧
        (loadQuestions path : WorldStep (List Question)).run w' = (.ok d'.questions, w') ∧
        (d'.questions.map Question.prompt = (sortWritten d.questions).map Question.prompt ↔
          ∀ q ∈ qs, ¬ HidesMark q.prompt) := by
  have questions := Dataset.questions_of_ofQuestions accepted
  refine ⟨?_, ?_, fun path w w' finite saved => ?_⟩
  · rw [questions, List.forall_mem_map]
    exact forall₂_congr fun q _ => Question.isMarked_cleanPrompt_iff.not
  · obtain ⟨d', again⟩ := Dataset.exists_ofQuestions_iff.mpr d.fit
    refine ⟨d', again, ?_⟩
    rw [← clean_of_normalize_iff, ← questions, ← map_normalize_eq_iff,
      ← Dataset.questions_of_ofQuestions again]
    constructor
    · rintro rfl
      rfl
    · intro same
      cases d
      cases d'
      cases same
      rfl
  · obtain ⟨d', loaded, listed, prompts⟩ :=
      load_of_saveQuestions (fun q member => ⟨d.fit q member, finite q member⟩) saved
    refine ⟨d', loaded, listed, ?_⟩
    rw [prompts, List.map_inj_left, ← clean_of_normalize_iff, ← questions]
    simp only [mem_sortWritten]

/-! ### A prompt with a blank before its mark -/

def lionQuestion : Question where
  prompt := " Q: How many cats weigh as much as a lion?"
  answer := 40.0
  figures := [{ text := "4.5 kg", name := "a cat" }, { text := "190 kg", name := "a lion" }]

theorem ofQuestions_again_lion :
    ∃ d d' d'' w', Dataset.ofQuestions [lionQuestion] = .ok d ∧
      (∃ q ∈ d.questions, IsMarked q.prompt) ∧
      Dataset.ofQuestions d.questions = .ok d' ∧ d' ≠ d ∧
      (saveQuestions "q.json" d.questions : WorldStep Unit).run emptyWorld = (.ok (), w') ∧
      (loadDataset "q.json" : WorldStep Dataset).run w' = (.ok d'', w') ∧
      d''.questions.map Question.prompt ≠ (sortWritten d.questions).map Question.prompt := by
  have hidden : HidesMark lionQuestion.prompt :=
    Question.isMarked_cleanPrompt_iff.mp (by decide +kernel)
  have some_hidden : ¬ ∀ q ∈ [lionQuestion], ¬ HidesMark q.prompt := fun none =>
    none lionQuestion List.mem_cons_self hidden
  have fit : ∀ q ∈ [lionQuestion], q.flaw? = none := by decide +kernel
  obtain ⟨d, accepted⟩ := Dataset.exists_ofQuestions_iff.mpr fit
  have questions := Dataset.questions_of_ofQuestions accepted
  have finite : ∀ q ∈ d.questions, q.quality.isFinite = true := by
    rw [questions]
    decide +kernel
  have found : emptyWorld.tree.find "q.json" = .ok ["home", "q.json"] := by decide +kernel
  obtain ⟨w', saved⟩ : ∃ w', (saveQuestions "q.json" d.questions : WorldStep Unit).run emptyWorld =
      (.ok (), w') :=
    exists_saveFile (by decide +kernel) (by decide +kernel) found (by decide +kernel)
  obtain ⟨marked, ⟨d', again, same⟩, reloaded⟩ := Dataset.ofQuestions_again accepted
  obtain ⟨d'', loaded, -, kept⟩ := reloaded "q.json" emptyWorld w' finite saved
  refine ⟨d, d', d'', w', accepted, ?_, again, same.not.mpr some_hidden, saved, loaded,
    kept.not.mpr some_hidden⟩
  by_contra! none
  exact some_hidden (marked.mp none)

end FermiQuiz
