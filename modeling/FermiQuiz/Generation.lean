import FermiQuiz.Question
import FermiQuiz.Chance.Draw
import Std.Data.HashSet

/-!
# Generating questions

Questions about the ratio of two facts, drawn until enough are new. A pair is drawn by its first
fact, then by a partner of it; a ratio below a thousandth is usually turned around, the more
likely the smaller it is.
-/

namespace FermiQuiz

open Number (Elementary)
open Chance

/-- How many questions are wanted, and how many repeated draws in a row end the search. -/
structure GenerationSettings where
  count : Nat := 20
  maxTries : Nat := 1000000

structure Generation where
  existing : List Question
  added : List Question

def Generation.questions (g : Generation) : List Question := g.existing ++ g.added

/-! ### Pairs -/

def Fact.isEligible (f : Fact) : Bool :=
  !Text.isAllBlank f.name && Number.isPositive f.quantity.value

/-- A fact with the facts it can be compared with, of which there is one at least. -/
structure Source where
  fact : Fact
  partners : List Fact
  partnered : 0 < partners.length

def sources (facts : List Fact) : List Source :=
  facts.filterMap fun f =>
    let partners := facts.filter f.comparableWith
    if h : 0 < partners.length then some ⟨f, partners, h⟩ else none

variable {σ : Type} [WordSource σ]

/-- The pair in the order in which its ratio is asked for. A ratio of magnitude `m` below -3
stays with probability `2 ^ (m / 4)`. -/
def orient [Elementary] (first second : Fact) (s : σ) : Except GameError (Fact × Fact) × σ :=
  match first.quantity.ratio second.quantity with
  | .error e => (.error e, s)
  | .ok ratio =>
    let m := Elementary.log10 ratio
    if m < -3.0 then
      let (roll, s) := unit s
      let pair := if Elementary.exp2 (m / 4.0) < roll then (second, first) else (first, second)
      (.ok pair, s)
    else (.ok (first, second), s)

def drawPair [Elementary] (pool : List Source) (nonempty : 0 < pool.length) (s : σ) :
    Except GameError (Fact × Fact) × σ :=
  let (source, s) := choose pool nonempty s
  let (partner, s) := choose source.partners source.partnered s
  orient source.fact partner s

/-! ### Questions -/

def ratioKey (a b : Fact) : QuestionKey := ⟨"ratio", [a.figureKey, b.figureKey]⟩

def ratioQuestion (a b : Fact) (answer : Float) (stamp : String) : Question where
  prompt := "What is the ratio of the *" ++ a.name ++ "* to the *" ++ b.name ++ "*"
  answer := answer
  figures := [a.figure, b.figure]
  quality := 1.0
  measurement := a.measurement
  style := "ratio"
  generated := stamp

theorem key_ratioQuestion (a b : Fact) (answer : Float) (stamp : String) :
    (ratioQuestion a b answer stamp).key = ratioKey a b := rfl

/-- A question whose key is not among `keys`, from at most so many draws. -/
def drawNew [Elementary] (pool : List Source) (nonempty : 0 < pool.length) (stamp : String)
    (keys : Std.HashSet QuestionKey) : Nat → σ → Except GameError (Option Question) × σ
  | 0, s => (.ok none, s)
  | tries + 1, s =>
    match drawPair pool nonempty s with
    | (.error e, s) => (.error e, s)
    | (.ok (a, b), s) =>
      match a.quantity.ratio b.quantity with
      | .error e => (.error e, s)
      | .ok answer =>
        if keys.contains (ratioKey a b) then drawNew pool nonempty stamp keys tries s
        else (.ok (some (ratioQuestion a b answer stamp)), s)

/-- Up to so many questions with keys that differ from `keys` and from each other; fewer when
`maxTries` draws in a row bring nothing new. -/
def drawSeveral [Elementary] (pool : List Source) (nonempty : 0 < pool.length) (stamp : String)
    (maxTries : Nat) : Nat → Std.HashSet QuestionKey → σ → Except GameError (List Question) × σ
  | 0, _, s => (.ok [], s)
  | count + 1, keys, s =>
    match drawNew pool nonempty stamp keys maxTries s with
    | (.error e, s) => (.error e, s)
    | (.ok none, s) => (.ok [], s)
    | (.ok (some q), s) =>
      match drawSeveral pool nonempty stamp maxTries count (keys.insert q.key) s with
      | (.error e, s) => (.error e, s)
      | (.ok qs, s) => (.ok (q :: qs), s)

def generate [Elementary] (facts : List Fact) (existing : List Question)
    (settings : GenerationSettings) (stamp : String) (s : σ) : Except GameError Generation × σ :=
  let eligible := facts.filter Fact.isEligible
  let pool := sources eligible
  if h : 0 < pool.length then
    let keys := Std.HashSet.ofList (existing.map Question.key)
    match drawSeveral pool h stamp settings.maxTries settings.count keys s with
    | (.error e, s) => (.error e, s)
    | (.ok added, s) => (.ok ⟨existing, added⟩, s)
  else (.error (.noComparablePair eligible.length), s)

end FermiQuiz
