import Mathlib
import FermiQuiz.Number.Numeral
import FermiQuiz.Store.Records
import FermiQuiz.Proofs.Json.Literal
import FermiQuiz.Proofs.Verdict

/-!
# Guessing the written answer

A player may guess the answer as the document writes it. The document is read by arithmetic that
may round more than once, the guess is not, so the guess is correct unless a power of ten lies
between the two doubles. That happens, but not when the literal is short.
-/

namespace FermiQuiz

open Number (Elementary isPositive nearestDecimal)
open Chance

/-! ### Documents -/

def questionFields : List String :=
  ["question", "answer", "values", "quality", "measurement", "style", "generated"]

/-- The document lists questions, and the answer of the one at `index` is written as `literal`. -/
def AnswerWritten (document : String) (index : ℕ) (literal : List Char) : Prop :=
  ∃ items item fields, Json.read? document = some (.array items) ∧ items[index]? = some item ∧
    Json.record? questionFields item = some fields ∧ fields[1]? = some (some (.number literal))

theorem exists_getElem?_of_mapM {α β : Type} {f : α → Option β} {items : List α}
    {results : List β} (h : items.mapM f = some results) {i : ℕ} {item : α}
    (listed : items[i]? = some item) :
    ∃ result, f item = some result ∧ results[i]? = some result := by
  induction items generalizing results i with
  | nil => cases listed
  | cons first rest ih =>
    rw [List.mapM_cons] at h
    obtain ⟨head, made, h⟩ := Option.bind_eq_some_iff.mp h
    obtain ⟨tail, others, h⟩ := Option.bind_eq_some_iff.mp h
    cases h
    cases i with
    | zero =>
      cases listed
      exact ⟨head, made, rfl⟩
    | succ i => exact ih others listed

theorem Question.float?_of_ofJson? {v : Json} {q : Question} {fields : List (Option Json)}
    (record : Json.record? questionFields v = some fields) (h : Question.ofJson? v = some q) :
    ∃ answer, fields[1]? = some (some answer) ∧ Json.float? answer = some q.answer := by
  unfold questionFields at record
  unfold Question.ofJson? at h
  rw [record] at h
  simp only [Option.bind_eq_bind, Option.bind_some] at h
  split at h
  · next prompt answer figures quality measurement style generated =>
    obtain ⟨x₀, -, h⟩ := Option.bind_eq_some_iff.mp h
    obtain ⟨x, read, h⟩ := Option.bind_eq_some_iff.mp h
    obtain ⟨x₂, -, h⟩ := Option.bind_eq_some_iff.mp h
    obtain ⟨x₃, -, h⟩ := Option.bind_eq_some_iff.mp h
    obtain ⟨x₄, -, h⟩ := Option.bind_eq_some_iff.mp h
    obtain ⟨x₅, -, h⟩ := Option.bind_eq_some_iff.mp h
    obtain ⟨x₆, -, h⟩ := Option.bind_eq_some_iff.mp h
    cases h
    obtain ⟨v, rfl, number⟩ := Option.bind_eq_some_iff.mp read
    exact ⟨v, rfl, number⟩
  · cases h

theorem AnswerWritten.exists_question {document : String} {index : ℕ} {literal : List Char}
    {d : Dataset} (written : AnswerWritten document index literal)
    (accepted : Dataset.ofText document = .ok d) :
    ∃ q, d.questions[index]? = some q ∧ isPositive q.answer = true ∧
      Json.float? (.number literal) = some q.answer := by
  obtain ⟨items, item, fields, read, listed, record, field⟩ := written
  obtain ⟨qs, questions, same⟩ := Dataset.exists_read_of_ofText accepted
  rw [readQuestions?, read, Option.bind_some, Json.list?] at questions
  obtain ⟨q, made, each⟩ := exists_getElem?_of_mapM questions listed
  have found : d.questions[index]? = some q.normalize := by
    rw [same, List.getElem?_map, each]
    rfl
  obtain ⟨answer, field', number⟩ := Question.float?_of_ofJson? record made
  rw [field'] at field
  cases field
  exact ⟨q.normalize, found, Question.isPositive_answer (d.fit _ (List.mem_of_getElem? found)), number⟩

/-! ### The guess -/

section

variable {σ : Type} [WordSource σ] [Elementary]

/-- The literal of an answer is a numeral, so it can be guessed. That guess is correct exactly if no
power of ten separates the double that the literal is nearest to from the one that the document's
reader makes of it, which is so when the literal is short. -/
theorem drawHint_of_answerWritten {document : String} {index : ℕ} {literal : List Char}
    {d : Dataset} (written : AnswerWritten document index literal)
    (accepted : Dataset.ofText document = .ok d) (settings : HintSettings) (s : σ) :
    ∃ q guess, d.questions[index]? = some q ∧
      Number.read? (String.ofList literal) = some guess ∧
      ((drawHint settings d q guess s).1 = .ok .correct ↔ isPositive guess = true ∧
        ∀ k : ℤ, nearestDecimal 1 k ≤ guess ↔ nearestDecimal 1 k ≤ q.answer) ∧
      ((∃ l, Json.parts? literal = some l ∧ l.IsShort) →
        (drawHint settings d q guess s).1 = .ok .correct) := by
  obtain ⟨q, found, positive, number⟩ := written.exists_question accepted
  obtain ⟨l, parts, value⟩ := Option.bind_eq_some_iff.mp number
  have read : Number.read? (String.ofList literal) = some l.nearest := by
    rw [Number.read?, String.toList_ofList]
    exact Json.readChars?_of_parts? parts
  refine ⟨q, l.nearest, found, read, drawHint_correct_iff settings d positive s, ?_⟩
  rintro ⟨l', parts', short⟩
  rw [parts] at parts'
  cases parts'
  rw [drawHint_correct_iff settings d positive, ← short.value?_eq value positive]
  exact ⟨positive, fun k => Iff.rfl⟩

end

def grainDocument : String :=
  "[\x7b\"question\":\"How many kilograms is one grain?\",\"answer\":1e-25," ++
    "\"values\":[\x7b\"value\":\"1 kg\",\"name\":\"a grain\"\x7d]\x7d]"

/-- The reader divides one by the double nearest to `10 ^ 25` and ends below the double nearest to
`10 ^ -25`, so that the guess `1e-25` is too high for the answer `1e-25`. -/
theorem guess_of_written_power_not_correct :
    AnswerWritten grainDocument 0 "1e-25".toList ∧ ∃ d q guess,
      Dataset.ofText grainDocument = .ok d ∧ d.questions[0]? = some q ∧
      Number.read? "1e-25" = some guess ∧
      (drawHint {} d q guess (Stream.ofSeed 1)).1 ≠ .ok .correct := by
  have written : AnswerWritten grainDocument 0 "1e-25".toList :=
    ⟨_, _, _, rfl, rfl, rfl, rfl⟩
  obtain ⟨d, accepted⟩ : ∃ d, Dataset.ofText grainDocument = .ok d := ⟨_, rfl⟩
  obtain ⟨q, guess, found, read, exact_condition, -⟩ :=
    drawHint_of_answerWritten written accepted {} (Stream.ofSeed 1)
  refine ⟨written, d, q, guess, accepted, found, read, fun correct => ?_⟩
  obtain ⟨q', found', -, number⟩ := written.exists_question accepted
  have same : q = q' := Option.some.inj (found.symm.trans found')
  have reached : (Number.read? "1e-25").map (fun x => decide (nearestDecimal 1 (-25) ≤ x)) =
      some true := by decide +kernel
  have missed : (Json.float? (.number "1e-25".toList)).map
      (fun x => decide (nearestDecimal 1 (-25) ≤ x)) = some false := by decide +kernel
  rw [show Number.read? "1e-25" = some guess from read] at reached
  rw [number, ← same] at missed
  have side := (exact_condition.mp correct).2 (-25)
  exact of_decide_eq_false (Option.some.inj missed)
    (side.mp (of_decide_eq_true (Option.some.inj reached)))

end FermiQuiz
