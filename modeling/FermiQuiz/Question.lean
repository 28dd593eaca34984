import FermiQuiz.Quantity
import FermiQuiz.Text.Blank

/-!
# Facts and questions

A fact is a measured quantity of a thing. A question compares facts; it shows each as a figure.
Facts and figures have a key, which says what was measured, and a question's key says which
facts it compares in which way.
-/

namespace FermiQuiz

/-- What a fact is about: the thing, what was measured of it, and which one of several such
measurements. -/
structure FactKey where
  thing : String
  measurement : String
  specifier : String
  deriving DecidableEq, Hashable, Repr

def FactKey.le (a b : FactKey) : Bool :=
  if a.thing = b.thing then
    if a.measurement = b.measurement then a.specifier ≤ b.specifier
    else a.measurement < b.measurement
  else a.thing < b.thing

structure Figure where
  text : String
  name : String
  image : Option String := none
  thing : String := ""
  measurement : String := ""
  specifier : String := ""
  deriving DecidableEq, Repr

/-- The fact behind a figure. A figure that names no thing goes by its own name. -/
def Figure.key (f : Figure) : FactKey :=
  if f.thing = "" then ⟨f.name, f.measurement, ""⟩ else ⟨f.thing, f.measurement, f.specifier⟩

structure Fact where
  quantity : Quantity
  /-- How prompts call the quantity; a fact without a name makes no questions. -/
  name : String := ""
  measurement : String := ""
  thing : String := ""
  specifier : String := ""
  note : String := ""
  quality : Float := 0.0
  generated : String := ""
  image : String := ""

namespace Fact

def key (f : Fact) : FactKey := ⟨f.thing, f.measurement, f.specifier⟩

/-- Whether the ratio of two facts makes a question: the same measurement in the same units, of
different things. -/
def comparableWith (a b : Fact) : Bool :=
  a.measurement == b.measurement && a.thing != b.thing && a.quantity.units == b.quantity.units

def figure (f : Fact) : Figure where
  text := f.quantity.text
  name := f.name
  image := if f.image = "" then none else some f.image
  thing := f.thing
  measurement := f.measurement
  specifier := f.specifier

/-- The key of the fact's figure, which the text of the figure has no part in. -/
def figureKey (f : Fact) : FactKey :=
  if f.thing = "" then ⟨f.name, f.measurement, ""⟩ else f.key

theorem key_figure (f : Fact) : f.figure.key = f.figureKey := rfl

end Fact

structure QuestionKey where
  style : String
  facts : List FactKey
  deriving DecidableEq, Hashable, Repr

structure Question where
  prompt : String
  answer : Float
  figures : List Figure
  /-- How well curated the question is, from 0 to 1. -/
  quality : Float := 1.0
  measurement : String := ""
  style : String := ""
  generated : String := ""

namespace Question

def key (q : Question) : QuestionKey := ⟨q.style, q.figures.map Figure.key⟩

def facts (q : Question) : List FactKey :=
  ((q.figures.map Figure.key).mergeSort FactKey.le).eraseReps

/-- A prompt without the mark `Q: ` that curated entries may carry, and without outer blanks. -/
def cleanPrompt (prompt : String) : String :=
  match prompt.toList with
  | 'Q' :: ':' :: ' ' :: rest => String.ofList (Text.trimChars rest)
  | _ => Text.trim prompt

def normalize (q : Question) : Question := { q with prompt := cleanPrompt q.prompt }

def flaw? (q : Question) : Option Flaw :=
  if !Number.isPositive q.answer then some (.answer q.answer)
  else if q.figures.isEmpty then some .noFigures
  else none

end Question

end FermiQuiz
