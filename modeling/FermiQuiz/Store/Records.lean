import FermiQuiz.Dataset
import FermiQuiz.Hint
import FermiQuiz.Json.Record
import FermiQuiz.Store.Failure

/-!
# The game in JSON

How questions, facts and hints are written in documents, and how questions and facts are read.
-/

namespace FermiQuiz

open Json (ofText ofFloat ofInt text? float? record? required? optional? list?)

def field (name : String) (v : Json) : List (List Char × Json) := [(name.toList, v)]

namespace Quantity

def toJson (q : Quantity) : Json :=
  .object (field "value" (ofFloat q.value) ++ field "units" (ofText q.units))

def ofJson? (v : Json) : Option Quantity := do
  match ← record? ["value", "units"] v with
  | [value, units] => return ⟨← required? float? value, ← optional? "" text? units⟩
  | _ => none

end Quantity

namespace Figure

def toJson (f : Figure) : Json :=
  .object (
    field "value" (ofText f.text) ++ field "name" (ofText f.name) ++
    field "image" (match f.image with
      | none => .null
      | some image => ofText image) ++
    Json.textUnlessEmpty "thing" f.thing ++
    Json.textUnlessEmpty "measurement" f.measurement ++
    Json.textUnlessEmpty "specifier" f.specifier)

def ofJson? (v : Json) : Option Figure := do
  match ← record? ["value", "name", "image", "thing", "measurement", "specifier"] v with
  | [text, name, image, thing, measurement, specifier] =>
    return {
      text := ← required? text? text
      name := ← required? text? name
      image := ← optional? none Json.maybeText? image
      thing := ← optional? "" text? thing
      measurement := ← optional? "" text? measurement
      specifier := ← optional? "" text? specifier }
  | _ => none

end Figure

namespace Question

def toJson (q : Question) : Json :=
  .object (
    field "question" (ofText q.prompt) ++ field "answer" (ofFloat q.answer) ++
    field "values" (.array (q.figures.map Figure.toJson)) ++
    field "quality" (ofFloat q.quality) ++
    Json.textUnlessEmpty "measurement" q.measurement ++
    Json.textUnlessEmpty "style" q.style ++
    Json.textUnlessEmpty "generated" q.generated)

def ofJson? (v : Json) : Option Question := do
  match ← record?
    ["question", "answer", "values", "quality", "measurement", "style", "generated"] v with
  | [prompt, answer, figures, quality, measurement, style, generated] =>
    return {
      prompt := ← required? text? prompt
      answer := ← required? float? answer
      figures := ← required? (list? Figure.ofJson?) figures
      quality := ← optional? 1.0 float? quality
      measurement := ← optional? "" text? measurement
      style := ← optional? "" text? style
      generated := ← optional? "" text? generated }
  | _ => none

end Question

namespace Fact

def toJson (f : Fact) : Json :=
  .object (
    field "value" f.quantity.toJson ++ field "name" (ofText f.name) ++
    field "measurement" (ofText f.measurement) ++ field "thing" (ofText f.thing) ++
    field "specifier" (ofText f.specifier) ++ field "note" (ofText f.note) ++
    field "quality" (ofFloat f.quality) ++ field "generated" (ofText f.generated) ++
    field "image" (ofText f.image))

def ofJson? (v : Json) : Option Fact := do
  match ← record?
    ["value", "name", "measurement", "thing", "specifier", "note", "quality", "generated",
      "image"] v with
  | [quantity, name, measurement, thing, specifier, note, quality, generated, image] =>
    return {
      quantity := ← required? Quantity.ofJson? quantity
      name := ← optional? "" text? name
      measurement := ← optional? "" text? measurement
      thing := ← optional? "" text? thing
      specifier := ← optional? "" text? specifier
      note := ← optional? "" text? note
      quality := ← optional? 0.0 float? quality
      generated := ← optional? "" text? generated
      image := ← optional? "" text? image }
  | _ => none

end Fact

namespace Scientific

def toJson (s : Scientific) : Json :=
  .object (field "magnitude" (ofInt s.magnitude) ++ field "digit" (ofInt s.digit) ++
    field "base" (ofText s.base))

end Scientific

def Direction.toJson : Direction → Json
  | tooHigh => ofText "too_high"
  | tooLow => ofText "too_low"

def Hint.toJson (h : Hint) : Json :=
  let kind := match h with
    | .correct => field "kind" (ofText "correct")
    | .plain direction factor =>
      field "kind" (ofText "direction") ++ field "direction" direction.toJson ++
        field "factor_magnitude" (ofInt factor)
    | .closer direction question =>
      field "kind" (ofText "closer") ++ field "direction" direction.toJson ++
        field "question" question.toJson
  .object (kind ++ field "message" (ofText h.message))

/-! ### Documents -/

def readQuestions? (s : String) : Option (List Question) :=
  (Json.read? s).bind (list? Question.ofJson?)

def readFacts? (s : String) : Option (List Fact) := (Json.read? s).bind (list? Fact.ofJson?)

def writeFacts (facts : List Fact) : String :=
  Json.prettyText (.array (facts.map Fact.toJson))

/-- The order of written questions: the best curated first, then by prompt. -/
def compareWritten (a b : Question) : Ordering :=
  (compare (Number.orderKey (1.0 - a.quality)) (Number.orderKey (1.0 - b.quality))).then
    (compare a.prompt b.prompt)

def sortWritten (qs : List Question) : List Question :=
  qs.mergeSort fun a b => (compareWritten a b).isLE

def writeQuestions (qs : List Question) : String :=
  Json.prettyText (.array ((sortWritten qs).map Question.toJson))

def Dataset.ofText (s : String) : Except Failure Dataset :=
  match readQuestions? s with
  | none => .error ⟨["failed to parse question JSON"], .json⟩
  | some qs =>
    match Dataset.ofQuestions qs with
    | .error e => .error (.ofGame e)
    | .ok d => .ok d

end FermiQuiz
