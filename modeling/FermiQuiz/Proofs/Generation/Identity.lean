import Mathlib
import FermiQuiz.Proofs.FactSet
import FermiQuiz.Proofs.Generation.Search

/-!
# Facts in questions

In a question a fact goes by its key, but a fact that names no thing goes by its own name, and its
specifier is lost. So facts with things are told apart in questions exactly as they are among facts,
a question shows one fact twice only if one is the namesake of the other, and a draw repeats a
question only if that shows the same facts.
-/

namespace FermiQuiz

open Number (Elementary)
open Chance

namespace Fact

variable {a b : Fact}

theorem key_figure_of_thing (thing : a.thing ≠ "") : a.figure.key = a.key :=
  if_neg thing

theorem key_figure_of_no_thing (none : a.thing = "") :
    a.figure.key = ⟨a.name, a.measurement, ""⟩ :=
  if_pos none

/-- `a` names no thing, and is called like the thing of `b`, which has no specifier. -/
structure IsNamesake (a b : Fact) : Prop where
  nameless : a.thing = ""
  called : a.name = b.thing
  plain : b.specifier = ""

theorem key_figure_eq_iff_of_no_thing (none : a.thing = "") (thing : b.thing ≠ "")
    (same : a.measurement = b.measurement) : a.figure.key = b.figure.key ↔ a.IsNamesake b := by
  rw [key_figure_of_no_thing none, key_figure_of_thing thing, key, FactKey.mk.injEq]
  constructor
  · rintro ⟨called, -, plain⟩
    exact ⟨none, called, plain.symm⟩
  · rintro ⟨-, called, plain⟩
    exact ⟨called, same, plain.symm⟩

end Fact

/-! ### The facts of a question -/

section

variable {facts : List Fact} {a b : Fact} {stamp : String}

/-- Two facts that go together have different things, so that one of them has a thing. -/
theorem Paired.key_figure_eq_iff (paired : Paired facts a b) :
    a.figure.key = b.figure.key ↔ a.IsNamesake b ∨ b.IsNamesake a := by
  have apart := paired.thing
  by_cases left : a.thing = ""
  · have right : b.thing ≠ "" := fun none => apart (left.trans none.symm)
    rw [Fact.key_figure_eq_iff_of_no_thing left right paired.measurement]
    exact (or_iff_left fun namesake => right namesake.nameless).symm
  · by_cases right : b.thing = ""
    · rw [eq_comm, Fact.key_figure_eq_iff_of_no_thing right left paired.measurement.symm]
      exact (or_iff_right fun namesake => left namesake.nameless).symm
    · rw [Fact.key_figure_of_thing left, Fact.key_figure_of_thing right]
      refine iff_of_false (fun same => apart (congrArg FactKey.thing same)) ?_
      rintro (namesake | namesake)
      · exact left namesake.nameless
      · exact right namesake.nameless

theorem Question.length_facts (q : Question) : q.facts.length = q.factSet.card := by
  rw [← List.toFinset_card_of_nodup q.facts_nodup]
  congr 1
  ext key
  rw [List.mem_toFinset, mem_facts]

theorem AsksRatio.length_facts_eq_two_iff {q : Question} (asks : AsksRatio q a b) :
    q.facts.length = 2 ↔ a.figure.key ≠ b.figure.key := by
  have shown : q.factSet = {a.figure.key, b.figure.key} := by
    rw [Question.factSet, asks.figures]
    simp
  rw [Question.length_facts, shown, Finset.card_pair_eq_two_iff]

theorem ratioKey_eq_iff {c d : Fact} : ratioKey a b = ratioKey c d ↔
    a.figure.key = c.figure.key ∧ b.figure.key = d.figure.key := by
  simp [ratioKey, Fact.key_figure]

end

/-! ### Repeated draws -/

section

variable {σ : Type} [WordSource σ] [Elementary] {facts : List Fact} {settings : GenerationSettings}
  {stamp : String} {nonempty : 0 < (poolOf facts).length} {p q : Search σ} {s : σ}

theorem Search.knows_iff (runs : Runs nonempty [] settings stamp (start s) p) {a b : Fact} :
    p.Knows [] (ratioKey a b) ↔ ∃ a' b', Paired facts a' b' ∧
      quotientQuestion stamp a' b' ∈ p.added ∧
      a'.figure.key = a.figure.key ∧ b'.figure.key = b.figure.key := by
  rw [Knows, List.nil_append, List.mem_map]
  constructor
  · rintro ⟨q, member, same⟩
    obtain ⟨a', b', paired, rfl⟩ := runs.kept.drawn.about q member
    exact ⟨a', b', paired, member, ratioKey_eq_iff.mp same⟩
  · rintro ⟨a', b', -, member, same⟩
    exact ⟨_, member, ratioKey_eq_iff.mpr same⟩

theorem Search.Step.added_eq_iff (step : Step nonempty [] settings stamp p q) :
    ∃ a b, Paired facts a b ∧ q.draws = p.draws ++ [(a, b)] ∧
      (q.added = p.added ↔ p.Knows [] (ratioKey a b)) := by
  cases step with
  | @repeated a b _ _ drawn known =>
    exact ⟨a, b, paired_of_drawPair drawn, rfl, iff_of_true rfl known⟩
  | @found a b _ _ drawn new =>
    refine ⟨a, b, paired_of_drawPair drawn, rfl, iff_of_false (fun same => ?_) new⟩
    exact absurd (List.append_right_eq_self.mp same) (List.cons_ne_nil _ _)

end

/-- Two facts with things have the same key in questions exactly if they have the same key. A fact
without a thing has that of its name. A question of a generation shows two facts, which have
different keys, unless one is the namesake of the other. Without questions to begin with, a draw is
passed over exactly if a question found before shows the same facts in the same order. -/
theorem figures_keep_facts {σ : Type} [WordSource σ] [Elementary] (facts : List Fact)
    (settings : GenerationSettings) (stamp : String) :
    (∀ a b : Fact, a.thing ≠ "" → b.thing ≠ "" →
      (a.figure.key = b.figure.key ↔ a.key = b.key)) ∧
    (∀ a b : Fact, a.thing = "" → (a.figure.key = b.figure.key ↔
      a.measurement = b.measurement ∧
        if b.thing = "" then a.name = b.name else a.name = b.thing ∧ b.specifier = "")) ∧
    (∀ (existing : List Question) (s s' : σ) (g : Generation),
      generate facts existing settings stamp s = (.ok g, s') →
      ∀ q ∈ g.added, ∃ a b, Paired facts a b ∧ AsksRatio q a b ∧ a.key ≠ b.key ∧
        (q.facts.length = 2 ↔ ¬ (a.IsNamesake b ∨ b.IsNamesake a))) ∧
    ∀ (nonempty : 0 < (poolOf facts).length) (s : σ) (p q : Search σ),
      Search.Runs nonempty [] settings stamp (.start s) p →
      Search.Step nonempty [] settings stamp p q →
      ∃ a b, Paired facts a b ∧ q.draws = p.draws ++ [(a, b)] ∧
        (q.added = p.added ↔ ∃ a' b', Paired facts a' b' ∧
          quotientQuestion stamp a' b' ∈ p.added ∧
          a'.figure.key = a.figure.key ∧ b'.figure.key = b.figure.key) := by
  refine ⟨fun a b left right => ?_, fun a b none => ?_, fun existing s s' g made q member => ?_,
    fun nonempty s p q runs step => ?_⟩
  · rw [Fact.key_figure_of_thing left, Fact.key_figure_of_thing right]
  · rw [Fact.key_figure_of_no_thing none]
    by_cases right : b.thing = ""
    · rw [Fact.key_figure_of_no_thing right, if_pos right, FactKey.mk.injEq]
      tauto
    · rw [Fact.key_figure_of_thing right, if_neg right, Fact.key, FactKey.mk.injEq]
      tauto
  · obtain ⟨-, -, drawn⟩ := drawn_of_generate made
    obtain ⟨a, b, paired, rfl⟩ := drawn.about q member
    have asks : AsksRatio (quotientQuestion stamp a b) a b := ⟨rfl, rfl, rfl⟩
    refine ⟨a, b, paired, asks, fun same => paired.thing (congrArg FactKey.thing same), ?_⟩
    rw [asks.length_facts_eq_two_iff, ne_eq, paired.key_figure_eq_iff]
  · obtain ⟨a, b, paired, draws, passed⟩ := step.added_eq_iff
    exact ⟨a, b, paired, draws, passed.trans (Search.knows_iff runs)⟩

/-! ### Widths of no thing -/

def narrowWidth : Fact where
  quantity := ⟨34.0, "km"⟩
  name := "Channel"
  measurement := "length"
  specifier := "min"

def wideWidth : Fact := { narrowWidth with quantity := ⟨240.0, "km"⟩, specifier := "max" }

def channelWidth : Fact where
  quantity := ⟨170.0, "km"⟩
  name := "width of the Channel"
  measurement := "length"
  thing := "Channel"

/-- Two facts without a thing are taken for one, and a question shows a fact without a thing and its
namesake as one. -/
theorem key_figure_of_widths :
    ¬ (narrowWidth.figure.key = wideWidth.figure.key ↔ narrowWidth.key = wideWidth.key) ∧
      Paired [narrowWidth, wideWidth, channelWidth] narrowWidth channelWidth ∧
      (quotientQuestion "now" narrowWidth channelWidth).facts.length ≠ 2 := by
  have paired : Paired [narrowWidth, wideWidth, channelWidth] narrowWidth channelWidth :=
    ⟨⟨by simp, rfl, by decide +kernel⟩, ⟨by simp, rfl, by decide +kernel⟩, rfl, rfl, by decide⟩
  have asks : AsksRatio (quotientQuestion "now" narrowWidth channelWidth) narrowWidth
    channelWidth := ⟨rfl, rfl, rfl⟩
  have namesake : narrowWidth.IsNamesake channelWidth := ⟨rfl, rfl, rfl⟩
  refine ⟨by decide, paired, fun two => ?_⟩
  exact asks.length_facts_eq_two_iff.mp two (paired.key_figure_eq_iff.mpr (Or.inl namesake))

/-- The heights of a tower and a ball are kept apart, two widths without a thing are not; the one
question of a generation over widths shows as many facts as it should, and the first draw of a
search is not passed over. -/
theorem figures_keep_widths :
    (towerFact.thing ≠ "" ∧ ballFact.thing ≠ "" ∧ towerFact.figure.key ≠ ballFact.figure.key) ∧
    (narrowWidth.thing = "" ∧ narrowWidth.figure.key = wideWidth.figure.key) ∧
    ∃ (_ : Elementary) (nonempty : 0 < (poolOf [narrowWidth, channelWidth]).length)
      (new : Question) (s' : Stream) (next : Search Stream),
      generate [narrowWidth, channelWidth] [] ⟨1, 1⟩ "now" (Stream.ofSeed 7) =
        (.ok ⟨[], [new]⟩, s') ∧
      (∃ a b, Paired [narrowWidth, channelWidth] a b ∧ AsksRatio new a b ∧ a.key ≠ b.key ∧
        (new.facts.length = 2 ↔ ¬ (a.IsNamesake b ∨ b.IsNamesake a))) ∧
      Search.Step nonempty [] ⟨1, 1⟩ "now" (.start (Stream.ofSeed 7)) next ∧
      next.added ≠ [] := by
  let elementary : Elementary := ⟨Number.steppedLog 10, Float.exp2⟩
  have nonempty : 0 < (poolOf [narrowWidth, channelWidth]).length := by decide +kernel
  obtain ⟨things, none, generations, searches⟩ := figures_keep_facts (σ := Stream)
    [narrowWidth, channelWidth] ⟨1, 1⟩ "now"
  refine ⟨⟨by decide, by decide, fun same => ?_⟩, ⟨rfl, ?_⟩, elementary, nonempty, ?_⟩
  · have keys := (things towerFact ballFact (by decide) (by decide)).mp same
    revert keys
    decide
  · exact (none narrowWidth wideWidth rfl).mpr ⟨rfl, rfl⟩
  · obtain ⟨added, s', made⟩ := exists_generate nonempty [] ⟨1, 1⟩ "now" (Stream.ofSeed 7)
    obtain ⟨new, rfl⟩ := List.length_eq_one_iff.mp
      (length_added_of_one_wanted made (List.forall_mem_nil _))
    have goes_on : (Search.start (Stream.ofSeed 7)).GoesOn ⟨1, 1⟩ := ⟨one_pos, one_pos⟩
    obtain ⟨next, step⟩ := goes_on.exists_step nonempty [] "now"
    obtain ⟨a, b, -, -, passed⟩ := searches nonempty _ _ next .refl step
    refine ⟨new, s', next, made, generations [] _ s' _ made new (List.mem_singleton_self new), step,
      fun same => ?_⟩
    obtain ⟨_, _, -, member, -⟩ := passed.mp same
    exact absurd member List.not_mem_nil

end FermiQuiz
