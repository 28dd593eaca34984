import Mathlib
import FermiQuiz.Proofs.StableSort
import FermiQuiz.Proofs.Store.Reloaded
import FermiQuiz.Proofs.Store.SavedAgain
import FermiQuiz.Proofs.Text.Bytes

/-!
# Questions that are saved

Saved questions are loaded in the order in which they are written: by what they lack in quality,
then by prompt, and otherwise as they were listed. If their prompts are clean and their numbers are
read back, that is all that saving and loading changes, and saving what was loaded changes nothing.
-/

namespace FermiQuiz

open Json (ofFloat float?)
open Number (orderKey)
open Question (cleanPrompt)
open Text (bytes)

/-! ### The order -/

/-- The first lacks less in quality, or as much and its prompt comes no later by its bytes. -/
def ComesBefore (p q : Question) : Prop :=
  orderKey (1.0 - p.quality) < orderKey (1.0 - q.quality) ∨
    orderKey (1.0 - p.quality) = orderKey (1.0 - q.quality) ∧ bytes p.prompt ≤ bytes q.prompt

/-- The order does not tell them apart. -/
def Ties (p q : Question) : Prop :=
  orderKey (1.0 - p.quality) = orderKey (1.0 - q.quality) ∧ p.prompt = q.prompt

instance (p q : Question) : Decidable (Ties p q) := inferInstanceAs (Decidable (_ ∧ _))

instance : Std.TransCmp compareWritten :=
  inferInstanceAs (Std.TransCmp (compareLex
    (compareOn fun q : Question => orderKey (1.0 - q.quality)) (compareOn Question.prompt)))

theorem isLE_compareWritten_iff {p q : Question} :
    (compareWritten p q).isLE = true ↔ ComesBefore p q := by
  rw [compareWritten, ComesBefore, Text.bytes_le_iff, Ordering.isLE_then_iff_or,
    Int.compare_eq_lt, Int.compare_eq_eq, Ordering.isLE_iff_ne_gt, ← ne_eq, compare_le_iff_le]

theorem compareWritten_eq_iff {p q : Question} : compareWritten p q = .eq ↔ Ties p q := by
  rw [compareWritten, Ties, Ordering.then_eq_eq, Int.compare_eq_eq, Std.compare_eq_iff_eq]

theorem sortWritten_eq (qs : List Question) : sortWritten qs = sortedBy compareWritten qs := rfl

theorem sortWritten_pairwise (qs : List Question) : (sortWritten qs).Pairwise ComesBefore :=
  (@sortedBy_pairwise _ compareWritten _ qs).imp isLE_compareWritten_iff.mp

theorem filter_sortWritten (qs : List Question) (q : Question) :
    (sortWritten qs).filter (Ties q ·) = qs.filter (Ties q ·) := by
  have same : (fun p => decide (Ties q p)) = (compareWritten q · == .eq) := by
    funext p
    rw [Bool.eq_iff_iff, decide_eq_true_eq, beq_iff_eq, compareWritten_eq_iff]
  rw [same, sortWritten_eq, filter_sortedBy]

/-! ### Loading -/

/-- The numbers of the question are read as they were written. -/
def Question.KeepsNumbers (q : Question) : Prop :=
  float? (ofFloat q.answer) = some q.answer ∧ float? (ofFloat q.quality) = some q.quality

instance (q : Question) : Decidable q.KeepsNumbers := inferInstanceAs (Decidable (_ ∧ _))

theorem Question.ofJson?_of_keepsNumbers {q : Question} (kept : q.KeepsNumbers) :
    ofJson? q.toJson = some q := by
  rw [ofJson?_toJson, kept.1, kept.2]
  rfl

theorem readQuestions?_of_keepsNumbers {qs : List Question} (kept : ∀ q ∈ qs, q.KeepsNumbers) :
    readQuestions? (writeQuestions qs) = some (sortWritten qs) := by
  rw [readQuestions?_writeQuestions, mapM_eq_some_iff, List.forall₂_same]
  intro q member
  exact Question.ofJson?_of_keepsNumbers (kept q (mem_sortWritten.mp member))

theorem writeQuestions_sortWritten (qs : List Question) :
    writeQuestions (sortWritten qs) = writeQuestions qs := by
  rw [writeQuestions, writeQuestions, sortWritten_eq, sortWritten_eq, sortedBy_sortedBy]

/-- Saved questions with clean prompts, whose numbers are read as they were written, are loaded as
they were: every one of them once, in order, and as they were listed where the order does not tell
them apart. Saving them again succeeds and changes nothing. -/
theorem load_of_saveQuestions_sorted {path : String} {w w' : World} {qs : List Question}
    (clean : ∀ q ∈ qs, cleanPrompt q.prompt = q.prompt) (kept : ∀ q ∈ qs, q.KeepsNumbers)
    (saved : (saveQuestions path qs : WorldStep Unit).run w = (.ok (), w')) :
    ∃ loaded, (loadQuestions path : WorldStep (List Question)).run w' = (.ok loaded, w') ∧
      loaded.Perm qs ∧ loaded.Pairwise ComesBefore ∧
      (∀ q, loaded.filter (Ties q ·) = qs.filter (Ties q ·)) ∧
      writeQuestions loaded = writeQuestions qs ∧
      (saveQuestions path loaded : WorldStep Unit).run w' = (.ok (), w') := by
  obtain ⟨present, held⟩ := read_of_saveFile saved
  have listed : (loadList "questions" readQuestions? path : WorldStep (List Question)).run w' = _ :=
    run_loadList present held
  rw [readQuestions?_of_keepsNumbers kept] at listed
  have normal : (sortWritten qs).map Question.normalize = sortWritten qs :=
    map_normalize_eq_iff.mpr fun q member => clean q (mem_sortWritten.mp member)
  have loaded : (loadQuestions path : WorldStep (List Question)).run w' =
      (.ok (sortWritten qs), w') := by
    unfold loadQuestions
    rw [WorldStep.run_bind_of_ok listed, normal]
    rfl
  refine ⟨sortWritten qs, loaded, List.mergeSort_perm _ _, sortWritten_pairwise qs,
    filter_sortWritten qs, writeQuestions_sortWritten qs, ?_⟩
  rw [saveQuestions, writeQuestions_sortWritten]
  exact WorldStep.saveFile_again saved

/-! ### Two questions that tie -/

def tiedQuestions : List Question := [
  { prompt := "How tall is it?", answer := 8849.0, quality := 0.5,
    figures := [{ text := "8849 m", name := "a peak", image := some "peak.png" }] },
  { prompt := "How tall is it?", answer := 0.1, quality := 0.5, figures := [] },
  { prompt := "How wide is it?", answer := 3.0, figures := [], measurement := "width" }]

theorem load_of_saveQuestions_tied :
    ∃ w' loaded, (saveQuestions "q.json" tiedQuestions : WorldStep Unit).run emptyWorld =
        (.ok (), w') ∧
      (loadQuestions "q.json" : WorldStep (List Question)).run w' = (.ok loaded, w') ∧
      loaded.Perm tiedQuestions ∧ loaded.Pairwise ComesBefore ∧
      (∀ q, loaded.filter (Ties q ·) = tiedQuestions.filter (Ties q ·)) ∧
      (saveQuestions "q.json" loaded : WorldStep Unit).run w' = (.ok (), w') := by
  have clean : ∀ q ∈ tiedQuestions, cleanPrompt q.prompt = q.prompt := by decide +kernel
  have kept : ∀ q ∈ tiedQuestions, q.KeepsNumbers := by decide +kernel
  have found : emptyWorld.tree.find "q.json" = .ok ["home", "q.json"] := by decide +kernel
  obtain ⟨w', saved⟩ : ∃ w',
      (saveQuestions "q.json" tiedQuestions : WorldStep Unit).run emptyWorld = (.ok (), w') :=
    exists_saveFile (by decide +kernel) (by decide +kernel) found (by decide +kernel)
  obtain ⟨loaded, ran, all, ordered, tied, -, again⟩ :=
    load_of_saveQuestions_sorted clean kept saved
  exact ⟨w', loaded, saved, ran, all, ordered, tied, again⟩

end FermiQuiz
