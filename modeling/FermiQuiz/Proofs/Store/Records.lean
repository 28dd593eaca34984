import Mathlib
import FermiQuiz.Store.Records
import FermiQuiz.Proofs.Dataset
import FermiQuiz.Proofs.Json.Number
import FermiQuiz.Proofs.Json.Record

/-!
# Facts and questions that are read back

Every field of a fact or a question is read back as it was, but for the numbers, which are read if
they are finite. So a written list of facts or questions is read exactly if all its numbers are
finite.
-/

namespace FermiQuiz

open Json (ofText ofFloat text? float? record? required? optional? list? present unlessEmpty
  WellNamed)
open Number (isPositive)

theorem field_eq (name : String) (v : Json) : field name v = present [(name, some v)] := rfl

theorem wellSpelled_ofFloat (x : Float) : (ofFloat x).WellSpelled := by
  by_cases finite : x.isFinite = true
  · obtain ⟨negative, s, e, parts⟩ := Number.isFinite_iff.mp finite
    rw [Json.ofFloat_of_finite parts]
    exact .number (Json.isLiteral_signedText parts)
  · rw [Json.ofFloat_of_not_finite finite]
    exact .null

theorem wellSpelled_ofInt (n : ℤ) : (Json.ofInt n).WellSpelled :=
  .number (Json.isLiteral_integerText n)

theorem isSome_float?_ofFloat (x : Float) :
    (float? (ofFloat x)).isSome = true ↔ x.isFinite = true := by
  constructor
  · intro read
    by_contra infinite
    rw [Json.ofFloat_of_not_finite infinite] at read
    cases read
  · intro finite
    obtain ⟨y, read, -⟩ := Json.exists_float?_of_finite finite
    rw [read]
    rfl

@[simp] theorem optional?_some {α : Type} (standard : α) (read : Json → Option α) (v : Json) :
    optional? standard read (some v) = read v := rfl

@[simp] theorem required?_some {α : Type} (read : Json → Option α) (v : Json) :
    required? read (some v) = read v := rfl

/-! ### Names -/

def fieldNames : List String :=
  ["value", "units", "name", "measurement", "thing", "specifier", "note", "quality", "generated",
    "image", "question", "answer", "values", "style"]

theorem escape_of_mem_fieldNames :
    ∀ name ∈ fieldNames, Json.escape name.toList = name.toList := by
  decide +kernel

theorem wellNamed_of_subset {names : List String} (listed : names ⊆ fieldNames)
    (distinct : names.Nodup) : WellNamed names :=
  ⟨fun name member => escape_of_mem_fieldNames name (listed member), distinct⟩

/-! ### Figures -/

namespace Figure

def imageJson : Option String → Json
  | none => .null
  | some image => ofText image

theorem maybeText?_imageJson (image : Option String) :
    Json.maybeText? (imageJson image) = some image := by
  cases image with
  | none => rfl
  | some image =>
    change (text? (ofText image)).map some = _
    rw [Json.text?_ofText, Option.map_some]

theorem wellSpelled_imageJson (image : Option String) : (imageJson image).WellSpelled := by
  cases image with
  | none => exact .null
  | some image => exact Json.wellSpelled_ofText image

def parts (f : Figure) : List (String × Option Json) :=
  [("value", some (ofText f.text)), ("name", some (ofText f.name)),
    ("image", some (imageJson f.image)), ("thing", unlessEmpty f.thing),
    ("measurement", unlessEmpty f.measurement), ("specifier", unlessEmpty f.specifier)]

theorem toJson_eq (f : Figure) : f.toJson = .object (present f.parts) := by
  obtain ⟨text, name, image, thing, measurement, specifier⟩ := f
  unfold toJson
  simp only [field_eq, Json.textUnlessEmpty_eq, ← Json.present_append]
  cases image <;> rfl

theorem wellNamed (f : Figure) : WellNamed (f.parts.map Prod.fst) := by
  change WellNamed ["value", "name", "image", "thing", "measurement", "specifier"]
  exact wellNamed_of_subset (by decide) (by decide)

theorem wellSpelled (f : Figure) : f.toJson.WellSpelled := by
  rw [toJson_eq]
  refine Json.wellSpelled_object f.wellNamed ?_
  simp only [parts, List.forall_mem_cons, Option.mem_some_iff, forall_eq']
  exact ⟨Json.wellSpelled_ofText _, Json.wellSpelled_ofText _, wellSpelled_imageJson _,
    Json.wellSpelled_unlessEmpty _, Json.wellSpelled_unlessEmpty _,
    Json.wellSpelled_unlessEmpty _, by simp⟩

theorem ofJson?_toJson (f : Figure) : ofJson? f.toJson = some f := by
  have fields : record? ["value", "name", "image", "thing", "measurement", "specifier"]
      (.object (present f.parts)) = some (f.parts.map Prod.snd) := Json.record?_present f.wellNamed
  rw [toJson_eq, ofJson?, fields]
  simp [parts, maybeText?_imageJson]

end Figure

/-! ### Questions -/

namespace Question

def parts (q : Question) : List (String × Option Json) :=
  [("question", some (ofText q.prompt)), ("answer", some (ofFloat q.answer)),
    ("values", some (.array (q.figures.map Figure.toJson))), ("quality", some (ofFloat q.quality)),
    ("measurement", unlessEmpty q.measurement), ("style", unlessEmpty q.style),
    ("generated", unlessEmpty q.generated)]

theorem toJson_eq (q : Question) : q.toJson = .object (present q.parts) := by
  unfold toJson
  simp only [field_eq, Json.textUnlessEmpty_eq, ← Json.present_append]
  rfl

theorem wellNamed (q : Question) : WellNamed (q.parts.map Prod.fst) := by
  change WellNamed ["question", "answer", "values", "quality", "measurement", "style", "generated"]
  exact wellNamed_of_subset (by decide) (by decide)

theorem wellSpelled (q : Question) : q.toJson.WellSpelled := by
  have figures : (Json.array (q.figures.map Figure.toJson)).WellSpelled := by
    refine .array fun v listed => ?_
    obtain ⟨f, -, rfl⟩ := List.mem_map.mp listed
    exact f.wellSpelled
  rw [toJson_eq]
  refine Json.wellSpelled_object q.wellNamed ?_
  simp only [parts, List.forall_mem_cons, Option.mem_some_iff, forall_eq']
  exact ⟨Json.wellSpelled_ofText _, wellSpelled_ofFloat _, figures, wellSpelled_ofFloat _,
    Json.wellSpelled_unlessEmpty _, Json.wellSpelled_unlessEmpty _,
    Json.wellSpelled_unlessEmpty _, by simp⟩

/-- A question is read back with what its numbers are read as. -/
theorem ofJson?_toJson (q : Question) : ofJson? q.toJson =
    (float? (ofFloat q.answer)).bind fun answer => (float? (ofFloat q.quality)).bind fun quality =>
      some { q with answer := answer, quality := quality } := by
  have fields : record?
      ["question", "answer", "values", "quality", "measurement", "style", "generated"]
      (.object (present q.parts)) = some (q.parts.map Prod.snd) := Json.record?_present q.wellNamed
  have figures : list? Figure.ofJson? (.array (q.figures.map Figure.toJson)) = some q.figures :=
    Json.list?_map fun f _ => f.ofJson?_toJson
  rw [toJson_eq, ofJson?, fields]
  simp only [parts, List.map_cons, List.map_nil, Option.pure_def, Option.bind_eq_bind,
    Option.bind_some, required?_some, optional?_some, Json.text?_ofText, figures,
    Json.optional?_unlessEmpty]

/-- Its numbers are finite, so that they can be written. -/
def Writable (q : Question) : Prop := q.answer.isFinite = true ∧ q.quality.isFinite = true

theorem isSome_ofJson?_toJson (q : Question) :
    (ofJson? q.toJson).isSome = true ↔ q.Writable := by
  rw [Writable, ← isSome_float?_ofFloat, ← isSome_float?_ofFloat, ofJson?_toJson]
  cases float? (ofFloat q.answer) with
  | none => simp
  | some answer => cases float? (ofFloat q.quality) <;> simp

/-- A question that is read back is as fit to be played as it was. -/
theorem flaw?_eq_none_of_ofJson? {q p : Question} (read : ofJson? q.toJson = some p) :
    q.flaw? = none ↔ p.flaw? = none := by
  have writable := q.isSome_ofJson?_toJson.mp (Option.isSome_of_eq_some read)
  obtain ⟨answer, read_answer, -, positive⟩ := Json.exists_float?_of_finite writable.1
  rw [ofJson?_toJson, read_answer, Option.bind_some] at read
  obtain ⟨quality, -, made⟩ := Option.bind_eq_some_iff.mp read
  cases made
  rw [flaw?_eq_none_iff, flaw?_eq_none_iff, ← positive]

end Question

/-! ### Facts -/

namespace Quantity

def parts (q : Quantity) : List (String × Option Json) :=
  [("value", some (ofFloat q.value)), ("units", some (ofText q.units))]

theorem wellNamed (q : Quantity) : WellNamed (q.parts.map Prod.fst) := by
  change WellNamed ["value", "units"]
  exact wellNamed_of_subset (by decide) (by decide)

theorem wellSpelled (q : Quantity) : q.toJson.WellSpelled := by
  refine Json.wellSpelled_object q.wellNamed ?_
  simp only [parts, List.forall_mem_cons, Option.mem_some_iff, forall_eq']
  exact ⟨wellSpelled_ofFloat _, Json.wellSpelled_ofText _, by simp⟩

theorem ofJson?_toJson (q : Quantity) : ofJson? q.toJson =
    (float? (ofFloat q.value)).map fun value => { q with value := value } := by
  have fields : record? ["value", "units"] (.object (present q.parts)) =
      some (q.parts.map Prod.snd) := Json.record?_present q.wellNamed
  change ofJson? (.object (present q.parts)) = _
  rw [ofJson?, fields]
  cases read : float? (ofFloat q.value) <;> simp [parts, read]

end Quantity

namespace Fact

def parts (f : Fact) : List (String × Option Json) :=
  [("value", some f.quantity.toJson), ("name", some (ofText f.name)),
    ("measurement", some (ofText f.measurement)), ("thing", some (ofText f.thing)),
    ("specifier", some (ofText f.specifier)), ("note", some (ofText f.note)),
    ("quality", some (ofFloat f.quality)), ("generated", some (ofText f.generated)),
    ("image", some (ofText f.image))]

theorem wellNamed (f : Fact) : WellNamed (f.parts.map Prod.fst) := by
  change WellNamed ["value", "name", "measurement", "thing", "specifier", "note", "quality",
    "generated", "image"]
  exact wellNamed_of_subset (by decide) (by decide)

theorem wellSpelled (f : Fact) : f.toJson.WellSpelled := by
  refine Json.wellSpelled_object f.wellNamed ?_
  simp only [parts, List.forall_mem_cons, Option.mem_some_iff, forall_eq']
  exact ⟨f.quantity.wellSpelled, Json.wellSpelled_ofText _, Json.wellSpelled_ofText _,
    Json.wellSpelled_ofText _, Json.wellSpelled_ofText _, Json.wellSpelled_ofText _,
    wellSpelled_ofFloat _, Json.wellSpelled_ofText _, Json.wellSpelled_ofText _, by simp⟩

/-- A fact is read back with what its numbers are read as. -/
theorem ofJson?_toJson (f : Fact) : ofJson? f.toJson =
    (float? (ofFloat f.quantity.value)).bind fun value =>
      (float? (ofFloat f.quality)).bind fun quality =>
        some { f with quantity := { f.quantity with value := value }, quality := quality } := by
  have fields : record?
      ["value", "name", "measurement", "thing", "specifier", "note", "quality", "generated",
        "image"]
      (.object (present f.parts)) = some (f.parts.map Prod.snd) := Json.record?_present f.wellNamed
  change ofJson? (.object (present f.parts)) = _
  rw [ofJson?, fields]
  simp only [parts, List.map_cons, List.map_nil, Option.pure_def, Option.bind_eq_bind,
    Option.bind_some, required?_some, optional?_some, Json.text?_ofText, Quantity.ofJson?_toJson,
    Option.bind_map, Function.comp_def]

/-- Its numbers are finite, so that they can be written. -/
def Writable (f : Fact) : Prop := f.quantity.value.isFinite = true ∧ f.quality.isFinite = true

theorem isSome_ofJson?_toJson (f : Fact) : (ofJson? f.toJson).isSome = true ↔ f.Writable := by
  rw [Writable, ← isSome_float?_ofFloat, ← isSome_float?_ofFloat, ofJson?_toJson]
  cases float? (ofFloat f.quantity.value) with
  | none => simp
  | some value => cases float? (ofFloat f.quality) <;> simp

end Fact

/-! ### Documents -/

theorem list?_of_written {α : Type} {write : α → Json} {read : Json → Option α} (xs : List α)
    (spelled : ∀ x, (write x).WellSpelled) :
    (Json.read? (Json.prettyText (.array (xs.map write)))).bind (list? read) =
      xs.mapM fun x => read (write x) := by
  have all : (Json.array (xs.map write)).WellSpelled := by
    refine .array fun v listed => ?_
    obtain ⟨x, -, rfl⟩ := List.mem_map.mp listed
    exact spelled x
  rw [all.read?_prettyText, Option.bind_some, list?, List.mapM_map]
  rfl

theorem readFacts?_writeFacts (facts : List Fact) :
    readFacts? (writeFacts facts) = facts.mapM fun f => Fact.ofJson? f.toJson :=
  list?_of_written facts Fact.wellSpelled

theorem isSome_readFacts?_writeFacts {facts : List Fact} :
    (readFacts? (writeFacts facts)).isSome = true ↔ ∀ f ∈ facts, f.Writable := by
  rw [readFacts?_writeFacts, isSome_mapM_iff]
  exact forall₂_congr fun f _ => f.isSome_ofJson?_toJson

theorem readQuestions?_writeQuestions (qs : List Question) : readQuestions? (writeQuestions qs) =
    (sortWritten qs).mapM fun q => Question.ofJson? q.toJson :=
  list?_of_written (sortWritten qs) Question.wellSpelled

theorem mem_sortWritten {qs : List Question} {q : Question} : q ∈ sortWritten qs ↔ q ∈ qs :=
  List.mem_mergeSort

theorem isSome_readQuestions?_writeQuestions {qs : List Question} :
    (readQuestions? (writeQuestions qs)).isSome = true ↔ ∀ q ∈ qs, q.Writable := by
  rw [readQuestions?_writeQuestions, isSome_mapM_iff]
  simp only [mem_sortWritten]
  exact forall₂_congr fun q _ => q.isSome_ofJson?_toJson

theorem forall_mem_iff_of_forall₂ {α β : Type} {R : α → β → Prop} {P : α → Prop} {Q : β → Prop}
    {xs : List α} {ys : List β} (related : List.Forall₂ R xs ys)
    (same : ∀ {x y}, R x y → (P x ↔ Q y)) : (∀ x ∈ xs, P x) ↔ ∀ y ∈ ys, Q y := by
  induction related with
  | nil => simp
  | cons first _ ih => rw [List.forall_mem_cons, List.forall_mem_cons, same first, ih]

/-- Written questions make a dataset exactly if each is fit to be played and of finite quality. -/
theorem exists_ofText_writeQuestions_iff {qs : List Question} :
    (∃ d, Dataset.ofText (writeQuestions qs) = .ok d) ↔
      ∀ q ∈ qs, q.flaw? = none ∧ q.quality.isFinite = true := by
  have fit_of_read {ps : List Question} (read : readQuestions? (writeQuestions qs) = some ps) :
      (∀ q ∈ qs, q.flaw? = none) ↔ ∀ p ∈ ps, p.flaw? = none := by
    rw [readQuestions?_writeQuestions, mapM_eq_some_iff] at read
    rw [← forall_mem_iff_of_forall₂ read Question.flaw?_eq_none_of_ofJson?]
    simp only [mem_sortWritten]
  unfold Dataset.ofText
  -- A document that cannot be read holds a number that is not finite.
  cases read : readQuestions? (writeQuestions qs) with
  | none =>
    have unreadable := isSome_readQuestions?_writeQuestions.not.mp (by simp [read] :
      ¬ (readQuestions? (writeQuestions qs)).isSome = true)
    constructor
    · rintro ⟨d, made⟩
      cases made
    · intro fit
      refine absurd (fun q member => ?_) unreadable
      exact ⟨Question.isFinite_answer (fit q member).1, (fit q member).2⟩
  | some ps =>
    have writable := isSome_readQuestions?_writeQuestions.mp (Option.isSome_of_eq_some read)
    -- What was read differs from what was written in its numbers only, and not in their sign.
    have accepted : (∃ d, Dataset.ofQuestions ps = .ok d) ↔ ∀ q ∈ qs, q.flaw? = none := by
      rw [Dataset.exists_ofQuestions_iff, fit_of_read read]
    have finite : (∀ q ∈ qs, q.flaw? = none ∧ q.quality.isFinite = true) ↔
        ∀ q ∈ qs, q.flaw? = none :=
      forall₂_congr fun q member => and_iff_left (writable q member).2
    rw [finite, ← accepted]
    dsimp only
    cases Dataset.ofQuestions ps with
    | error e => simp
    | ok d => simp

end FermiQuiz
