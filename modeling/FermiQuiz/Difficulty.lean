import FermiQuiz.Question

/-!
# Difficulty

A question is hard when its answer is far from one, when it is badly curated and when its prompt
is long. `rankByDifficulty` puts the easy questions first, in the order of `compareDifficulty`.
-/

namespace FermiQuiz

variable [Number.Elementary]

/-- The share of the answer's size in the difficulty: complete at twenty orders of magnitude, and
for answers that are not positive and finite. -/
def spread (answer : Float) : Float :=
  if 0.0 < answer && answer.isFinite then
    Number.lesser ((Number.Elementary.log10 answer).abs / 20.0) 1.0
  else 1.0

def obscurity (quality : Float) : Float := 1.0 - Number.clampUnit quality

/-- The share of the prompt's length: complete at thirty words. -/
def wordiness (words : Nat) : Float := Number.lesser (Float.ofNat words / 30.0) 1.0

def difficulty (q : Question) : Float :=
  0.6 * spread q.answer + 0.3 * obscurity q.quality + 0.1 * wordiness (Text.wordCount q.prompt)

/-- The order of questions with their scores: by score, then by prompt. -/
def compareScored (a b : Float × Question) : Ordering :=
  (compare (Number.orderKey a.1) (Number.orderKey b.1)).then (compare a.2.prompt b.2.prompt)

def compareDifficulty (a b : Question) : Ordering :=
  compareScored (difficulty a, a) (difficulty b, b)

/-- The questions from easy to hard; those that compare equal keep their order. -/
def rankByDifficulty (qs : List Question) : List Question :=
  ((qs.map fun q => (difficulty q, q)).mergeSort fun a b => (compareScored a b).isLE).map (·.2)

end FermiQuiz
