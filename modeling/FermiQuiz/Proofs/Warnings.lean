import Mathlib
import FermiQuiz.Proofs.Dataset
import FermiQuiz.Proofs.Number.Value
import FermiQuiz.Proofs.Numbered
import FermiQuiz.Proofs.Text.Trimmed

/-!
# Warnings

A dataset warns of exactly the issues that it has, and of each once: first of the questions that
repeat earlier ones, then of the oddities of single questions, and last of the missing images.
-/

namespace FermiQuiz

/-- The issues that a question has because of the questions before it. -/
inductive Question.Repeats (before : List Question) (q : Question) : Issue → Prop
  | question {p : Question} (earlier : p ∈ before) (same : p.key = q.key) :
    Repeats before q .duplicateQuestion
  | prompt {p : Question} (earlier : p ∈ before)
    (same : Text.lower p.prompt = Text.lower q.prompt) :
    Repeats before q (.duplicatePrompt q.prompt)

/-- The issues that a question has by itself. -/
inductive Question.IsOdd (q : Question) : Issue → Prop
  | prompt (empty : q.prompt = "") : IsOdd q .emptyPrompt
  | quality (outside : q.quality.isNaN = true ∨ q.quality < 0.0 ∨ 1.0 < q.quality) :
    IsOdd q (.qualityOutside q.quality)
  | figure {f : Figure} (member : f ∈ q.figures) (unnamed : Text.trim f.name = "") :
    IsOdd q .unnamedFigure

/-- The issues of a dataset with the questions that have them. -/
inductive Dataset.Has (d : Dataset) : Warning → Prop
  | repeats {i : ℕ} {q : Question} {issue : Issue} (at_place : d.questions[i]? = some q)
    (h : q.Repeats (d.questions.take i) issue) : Has d ⟨some i, issue⟩
  | odd {i : ℕ} {q : Question} {issue : Issue} (at_place : d.questions[i]? = some q)
    (h : q.IsOdd issue) : Has d ⟨some i, issue⟩
  | images {n : ℕ} (some_missing : 0 < n)
    (count : n = (d.questions.flatMap Question.figures).countP (·.image.isNone)) :
    Has d ⟨none, .missingImages n⟩

/-- Repetitions, oddities of single questions and missing images are looked for in this order. -/
def Issue.pass : Issue → ℕ
  | duplicateQuestion | duplicatePrompt _ => 0
  | emptyPrompt | qualityOutside _ | unnamedFigure => 1
  | missingImages _ => 2

/-- Where an issue stands among those of one question. -/
def Issue.kind : Issue → ℕ
  | duplicateQuestion => 0
  | duplicatePrompt _ => 1
  | emptyPrompt => 2
  | qualityOutside _ => 3
  | unnamedFigure => 4
  | missingImages _ => 5

/-- The order of passes, then of questions, then of the kinds of issues. -/
def Warning.Precedes (v w : Warning) : Prop :=
  v.issue.pass < w.issue.pass ∨ v.issue.pass = w.issue.pass ∧
    (v.index < w.index ∨ v.index = w.index ∧ v.issue.kind < w.issue.kind)

/-! ### The issues of one question -/

theorem mem_ite_singleton_iff {α : Type} {a b : α} {p : Prop} [Decidable p] :
    b ∈ (if p then [a] else []) ↔ p ∧ b = a := by
  split <;> simp [*]

theorem mem_ite_nil_iff {α : Type} {a b : α} {p : Prop} [Decidable p] :
    b ∈ (if p then [] else [a]) ↔ ¬ p ∧ b = a := by
  split <;> simp [*]

def lowered (q : Question) : String := Text.lower q.prompt

/-- What repeats earlier questions, whose keys and prompts were collected with the last in front. -/
def repetitionsAfter (before : List Question) (q : Question) : List Issue :=
  repetitions (before.reverse.map Question.key) (before.reverse.map lowered) q

theorem mem_repetitionsAfter_iff {before : List Question} {q : Question} {issue : Issue} :
    issue ∈ repetitionsAfter before q ↔ q.Repeats before issue := by
  simp only [repetitionsAfter, repetitions, List.mem_append, mem_ite_singleton_iff,
    List.contains_iff_mem, List.mem_map, List.mem_reverse]
  constructor
  · rintro (⟨⟨p, earlier, same⟩, rfl⟩ | ⟨⟨p, earlier, same⟩, rfl⟩)
    · exact .question earlier same
    · exact .prompt earlier same
  · rintro (⟨earlier, same⟩ | ⟨earlier, same⟩)
    · exact Or.inl ⟨⟨_, earlier, same⟩, rfl⟩
    · exact Or.inr ⟨⟨_, earlier, same⟩, rfl⟩

theorem outside_unit_iff {x : Float} : ¬ (0.0 ≤ x && x ≤ 1.0) = true ↔
    x.isNaN = true ∨ x < 0.0 ∨ 1.0 < x := by
  have zero : (0.0 : Float).isNaN = false := by decide
  have one : (1.0 : Float).isNaN = false := by decide
  rw [Bool.and_eq_true, decide_eq_true_eq, decide_eq_true_eq, not_and_or, Number.not_le_iff,
    Number.not_le_iff, zero, one]
  tauto

theorem mem_oddities_iff {q : Question} {issue : Issue} :
    issue ∈ oddities q ↔ q.IsOdd issue := by
  simp only [oddities, List.mem_append, mem_ite_singleton_iff, mem_ite_nil_iff, outside_unit_iff,
    List.any_eq_true, Text.isAllBlank_iff]
  constructor
  · rintro ((⟨empty, rfl⟩ | ⟨outside, rfl⟩) | ⟨⟨f, member, unnamed⟩, rfl⟩)
    · exact .prompt empty
    · exact .quality outside
    · exact .figure member unnamed
  · rintro (empty | outside | ⟨member, unnamed⟩)
    · exact Or.inl (Or.inl ⟨empty, rfl⟩)
    · exact Or.inl (Or.inr ⟨outside, rfl⟩)
    · exact Or.inr ⟨⟨_, member, unnamed⟩, rfl⟩

theorem pairwise_repetitionsAfter (before : List Question) (q : Question) :
    (repetitionsAfter before q).Pairwise fun a b => a.kind < b.kind := by
  unfold repetitionsAfter repetitions
  split <;> split <;> simp [Issue.kind]

theorem pairwise_oddities (q : Question) : (oddities q).Pairwise fun a b => a.kind < b.kind := by
  unfold oddities
  split <;> split <;> split <;> simp [Issue.kind]

/-! ### Numbered warnings -/

def Warning.ofNumbered (numbered : ℕ × Issue) : Warning := ⟨some numbered.1, numbered.2⟩

theorem odditiesFrom_eq (index : ℕ) (qs : List Question) :
    odditiesFrom index qs = (numbered (fun _ => oddities) index qs).map Warning.ofNumbered := by
  induction qs generalizing index with
  | nil => rfl
  | cons q qs ih =>
    rw [odditiesFrom, ih, numbered, List.map_append, List.map_map]
    rfl

/-- What has been seen of the questions when `qs` are left is what the earlier ones of the whole
list have. -/
theorem repetitionsFrom_eq (seen qs : List Question) :
    repetitionsFrom (seen.map Question.key) (seen.map lowered) seen.length qs =
      (numbered (fun i => repetitionsAfter ((seen.reverse ++ qs).take i)) seen.length qs).map
        Warning.ofNumbered := by
  induction qs generalizing seen with
  | nil => rfl
  | cons q qs ih =>
    have before : (seen.reverse ++ q :: qs).take seen.length = seen.reverse :=
      List.take_left' (List.length_reverse ..)
    have rest := ih (q :: seen)
    rw [List.reverse_cons, List.append_assoc, List.singleton_append, List.length_cons] at rest
    rw [repetitionsFrom, numbered, List.map_append, List.map_map, before, repetitionsAfter,
      List.reverse_reverse, ← rest]
    rfl

section

variable {f : ℕ → Question → List Issue} {qs : List Question} {w : Warning}

theorem mem_map_ofNumbered_iff : w ∈ (numbered f 0 qs).map Warning.ofNumbered ↔
    ∃ i q, w.index = some i ∧ qs[i]? = some q ∧ w.issue ∈ f i q := by
  rw [List.mem_map]
  constructor
  · rintro ⟨⟨i, issue⟩, member, rfl⟩
    obtain ⟨k, q, rfl, at_place, member⟩ := mem_numbered_iff.mp member
    exact ⟨0 + k, q, rfl, by rwa [zero_add], member⟩
  · rintro ⟨i, q, index, at_place, member⟩
    refine ⟨(i, w.issue), mem_numbered_iff.mpr ⟨i, q, (zero_add i).symm, at_place, member⟩, ?_⟩
    rw [Warning.ofNumbered, ← index]

theorem pairwise_map_ofNumbered {pass : ℕ} (same : ∀ i q, ∀ issue ∈ f i q, issue.pass = pass)
    (sorted : ∀ i q, (f i q).Pairwise fun a b => a.kind < b.kind) :
    ((numbered f 0 qs).map Warning.ofNumbered).Pairwise Warning.Precedes := by
  rw [List.pairwise_map]
  refine (pairwise_numbered sorted 0).imp_of_mem fun {v w} hv hw before => Or.inr ⟨?_, ?_⟩
  · obtain ⟨_, _, -, -, hv⟩ := mem_numbered_iff.mp hv
    obtain ⟨_, _, -, -, hw⟩ := mem_numbered_iff.mp hw
    exact (same _ _ _ hv).trans (same _ _ _ hw).symm
  · exact before.imp Option.some_lt_some.mpr fun ⟨index, kind⟩ => ⟨congrArg some index, kind⟩

end

theorem Issue.pass_eq_of_kind_eq {a b : Issue} (h : a.kind = b.kind) : a.pass = b.pass := by
  cases a <;> cases b <;> first | rfl | cases h

theorem Question.Repeats.pass_eq {before : List Question} {q : Question} {issue : Issue}
    (h : q.Repeats before issue) : issue.pass = 0 := by
  cases h <;> rfl

theorem Question.IsOdd.pass_eq {q : Question} {issue : Issue} (h : q.IsOdd issue) :
    issue.pass = 1 := by
  cases h <;> rfl

theorem repetitionsFrom_zero (qs : List Question) : repetitionsFrom [] [] 0 qs =
    (numbered (fun i => repetitionsAfter (qs.take i)) 0 qs).map Warning.ofNumbered :=
  repetitionsFrom_eq [] qs

section

variable {qs : List Question} {w : Warning}

theorem mem_repetitionsFrom_iff : w ∈ repetitionsFrom [] [] 0 qs ↔
    ∃ i q, w.index = some i ∧ qs[i]? = some q ∧ q.Repeats (qs.take i) w.issue := by
  simp only [repetitionsFrom_zero, mem_map_ofNumbered_iff, mem_repetitionsAfter_iff]

theorem mem_odditiesFrom_iff : w ∈ odditiesFrom 0 qs ↔
    ∃ i q, w.index = some i ∧ qs[i]? = some q ∧ q.IsOdd w.issue := by
  simp only [odditiesFrom_eq, mem_map_ofNumbered_iff, mem_oddities_iff]

theorem pass_of_mem_repetitionsFrom (member : w ∈ repetitionsFrom [] [] 0 qs) :
    w.issue.pass = 0 := by
  obtain ⟨_, _, -, -, repeats⟩ := mem_repetitionsFrom_iff.mp member
  exact repeats.pass_eq

theorem pass_of_mem_odditiesFrom (member : w ∈ odditiesFrom 0 qs) : w.issue.pass = 1 := by
  obtain ⟨_, _, -, -, odd⟩ := mem_odditiesFrom_iff.mp member
  exact odd.pass_eq

end

/-! ### The warnings of a dataset -/

namespace Dataset

variable (d : Dataset)

theorem mem_warnings_iff {w : Warning} : w ∈ d.warnings ↔ d.Has w := by
  rw [warnings, List.mem_append, List.mem_append, mem_repetitionsFrom_iff, mem_odditiesFrom_iff,
    mem_ite_nil_iff]
  obtain ⟨index, issue⟩ := w
  constructor
  · rintro ((⟨i, q, rfl, at_place, repeats⟩ | ⟨i, q, rfl, at_place, odd⟩) | ⟨some_missing, same⟩)
    · exact .repeats at_place repeats
    · exact .odd at_place odd
    · cases same
      exact .images (Nat.pos_of_ne_zero some_missing) rfl
  · rintro (⟨at_place, repeats⟩ | ⟨at_place, odd⟩ | ⟨some_missing, rfl⟩)
    · exact Or.inl (Or.inl ⟨_, _, rfl, at_place, repeats⟩)
    · exact Or.inl (Or.inr ⟨_, _, rfl, at_place, odd⟩)
    · exact Or.inr ⟨some_missing.ne', rfl⟩

theorem pairwise_warnings : d.warnings.Pairwise Warning.Precedes := by
  refine List.pairwise_append.mpr ⟨List.pairwise_append.mpr ⟨?_, ?_, ?_⟩, ?_, ?_⟩
  · rw [repetitionsFrom_zero]
    exact pairwise_map_ofNumbered
      (fun _ _ _ member => (mem_repetitionsAfter_iff.mp member).pass_eq)
      fun _ _ => pairwise_repetitionsAfter _ _
  · rw [odditiesFrom_eq]
    exact pairwise_map_ofNumbered (fun _ _ _ member => (mem_oddities_iff.mp member).pass_eq)
      fun _ => pairwise_oddities
  · intro v hv w hw
    left
    rw [pass_of_mem_repetitionsFrom hv, pass_of_mem_odditiesFrom hw]
    exact zero_lt_one
  · split <;> simp
  · intro v hv w hw
    have last : w.issue.pass = 2 := by
      rw [(mem_ite_nil_iff.mp hw).2]
      rfl
    left
    rcases List.mem_append.mp hv with repeats | odd
    · rw [pass_of_mem_repetitionsFrom repeats, last]
      exact two_pos
    · rw [pass_of_mem_odditiesFrom odd, last]
      exact one_lt_two

/-- Without a warning about a question, no two of them have something in common of which a warning
would tell. -/
theorem nodup_map_of_index_none {β : Type} {f : Question → β} {issue : Question → Issue}
    (quiet : ∀ w ∈ d.warnings, w.index = none)
    (told : ∀ before p q, p ∈ before → f p = f q → q.Repeats before (issue q)) :
    (d.questions.map f).Nodup := by
  rw [List.Nodup, List.pairwise_map, List.pairwise_iff_getElem]
  intro i j hi hj less same
  have earlier : d.questions[i] ∈ d.questions.take j := by
    rw [List.mem_take_iff_getElem]
    exact ⟨i, by omega, rfl⟩
  have repeats := told _ _ _ earlier same
  have warned := (mem_warnings_iff d).mpr (.repeats (List.getElem?_eq_getElem hj) repeats)
  cases quiet _ warned

theorem nodup_index_kind : (d.warnings.map fun w => (w.index, w.issue.kind)).Nodup := by
  rw [List.Nodup, List.pairwise_map]
  refine (pairwise_warnings d).imp fun {v w} before same => ?_
  obtain ⟨index, kind⟩ := Prod.mk.inj same
  have pass := Issue.pass_eq_of_kind_eq kind
  rcases before with before | ⟨-, before | ⟨-, before⟩⟩
  · exact before.ne pass
  · rw [index] at before
    cases at_place : w.index with
    | none => simp [at_place] at before
    | some i => simp [at_place] at before
  · exact before.ne kind

/-- The warnings are the issues of the dataset, in order and each kind at most once about a
question. Without one about a question all questions and all prompts differ. -/
theorem warnings_are_the_issues :
    (∀ w, w ∈ d.warnings ↔ d.Has w) ∧ d.warnings.Pairwise Warning.Precedes ∧
      (d.warnings.map fun w => (w.index, w.issue.kind)).Nodup ∧
      ((∀ w ∈ d.warnings, w.index = none) → (d.questions.map Question.key).Nodup ∧
        (d.questions.map fun q => Text.lower q.prompt).Nodup ∧
        (d.questions.map Question.prompt).Nodup) := by
  refine ⟨fun w => mem_warnings_iff d, pairwise_warnings d, nodup_index_kind d, fun quiet => ?_⟩
  have keys := nodup_map_of_index_none d quiet (fun _ _ _ => Question.Repeats.question)
  have small := nodup_map_of_index_none d quiet (f := fun q => Text.lower q.prompt)
    (fun _ _ _ => Question.Repeats.prompt)
  refine ⟨keys, small, List.Nodup.of_map Text.lower ?_⟩
  rwa [List.map_map]

/-- The questions about a town differ and lack nothing but images; of one that comes twice the
second is told. -/
theorem warnings_of_town :
    (∀ w ∈ townDataset.warnings, w.index = none) ∧
      (townDataset.questions.map Question.key).Nodup ∧
      (townDataset.questions.map Question.prompt).Nodup ∧
      ⟨none, .missingImages 8⟩ ∈ townDataset.warnings ∧
      ∃ d : Dataset, d.questions = [townQuestion, townQuestion] ∧
        ⟨some 1, .duplicateQuestion⟩ ∈ d.warnings := by
  have quiet : ∀ w ∈ townDataset.warnings, w.index = none := by decide +kernel
  obtain ⟨issues, -, -, differ⟩ := warnings_are_the_issues townDataset
  obtain ⟨keys, -, prompts⟩ := differ quiet
  have fit : ∀ q ∈ [townQuestion, townQuestion], q.flaw? = none := by decide +kernel
  let twice : Dataset := ⟨[townQuestion, townQuestion], fit⟩
  have repeats : townQuestion.Repeats [townQuestion] .duplicateQuestion :=
    .question (List.mem_singleton_self townQuestion) rfl
  exact ⟨quiet, keys, prompts, (issues _).mpr (.images (by decide) rfl), twice, rfl,
    ((warnings_are_the_issues twice).1 _).mpr (.repeats rfl repeats)⟩

end Dataset

end FermiQuiz
