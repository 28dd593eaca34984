import FermiQuiz.Question
import FermiQuiz.Text.Lowercase

/-!
# Datasets

A dataset is a list of questions that are all fit to be played. `Dataset.ofQuestions` cleans the
prompts of a list and rejects it at the first unfit question; `Dataset.warnings` lists what is
odd about a dataset without making it unplayable.
-/

namespace FermiQuiz

/-- The first unfit question of a list that is numbered from `index`. -/
def firstFlaw (index : Nat) : List Question → Option (Nat × Flaw)
  | [] => none
  | q :: qs =>
    match q.flaw? with
    | some flaw => some (index, flaw)
    | none => firstFlaw (index + 1) qs

theorem flaw?_eq_none_of_firstFlaw {index : Nat} {qs : List Question}
    (h : firstFlaw index qs = none) : ∀ q ∈ qs, q.flaw? = none := by
  induction qs generalizing index with
  | nil => simp
  | cons q qs ih =>
    rw [firstFlaw] at h
    split at h
    · simp at h
    · next fit =>
      intro p member
      rcases List.mem_cons.mp member with rfl | member
      · exact fit
      · exact ih h p member

structure Dataset where
  questions : List Question
  fit : ∀ q ∈ questions, q.flaw? = none

inductive Issue where
  | duplicateQuestion
  /-- An earlier prompt differs at most in letter case. -/
  | duplicatePrompt (prompt : String)
  | emptyPrompt
  | qualityOutside (quality : Float)
  | unnamedFigure
  | missingImages (count : Nat)

def Issue.message : Issue → String
  | duplicateQuestion => "duplicate question: same style and values as an earlier entry"
  | duplicatePrompt prompt => "duplicate prompt: " ++ prompt
  | emptyPrompt => "prompt is empty"
  | qualityOutside quality => "quality " ++ Number.plainText quality ++ " is outside 0..=1"
  | unnamedFigure => "a value has no name"
  | missingImages count => Number.naturalText count ++ " value(s) have no image"

/-- An issue, and the question that has it unless it is the whole dataset's. -/
structure Warning where
  index : Option Nat
  issue : Issue

/-- The issues of a question that earlier ones cause. -/
def repetitions (keys : List QuestionKey) (prompts : List String) (q : Question) : List Issue :=
  (if keys.contains q.key then [Issue.duplicateQuestion] else []) ++
    (if prompts.contains (Text.lower q.prompt) then [Issue.duplicatePrompt q.prompt] else [])

/-- The repetitions in a list that is numbered from `index`, after questions with the given keys
and lower-case prompts. -/
def repetitionsFrom (keys : List QuestionKey) (prompts : List String) (index : Nat) :
    List Question → List Warning
  | [] => []
  | q :: qs =>
    (repetitions keys prompts q).map (⟨some index, ·⟩) ++
      repetitionsFrom (q.key :: keys) (Text.lower q.prompt :: prompts) (index + 1) qs

def oddities (q : Question) : List Issue :=
  (if q.prompt = "" then [Issue.emptyPrompt] else []) ++
    (if 0.0 ≤ q.quality && q.quality ≤ 1.0 then [] else [Issue.qualityOutside q.quality]) ++
    (if q.figures.any (Text.isAllBlank ·.name) then [Issue.unnamedFigure] else [])

def odditiesFrom (index : Nat) : List Question → List Warning
  | [] => []
  | q :: qs => (oddities q).map (⟨some index, ·⟩) ++ odditiesFrom (index + 1) qs

namespace Dataset

/-- The dataset of the questions with clean prompts. -/
def ofQuestions (qs : List Question) : Except GameError Dataset :=
  let normalized := qs.map Question.normalize
  match h : firstFlaw 0 normalized with
  | some (index, flaw) => .error (.invalidQuestion index flaw)
  | none => .ok ⟨normalized, flaw?_eq_none_of_firstFlaw h⟩

def missingImages (d : Dataset) : Nat :=
  (d.questions.flatMap Question.figures).countP (·.image.isNone)

/-- The issues of a dataset: repetitions, then the oddities of single questions, then the missing
images. -/
def warnings (d : Dataset) : List Warning :=
  repetitionsFrom [] [] 0 d.questions ++ odditiesFrom 0 d.questions ++
    (if d.missingImages = 0 then [] else [⟨none, .missingImages d.missingImages⟩])

end Dataset

end FermiQuiz
