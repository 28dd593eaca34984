import Mathlib
import FermiQuiz.Generation
import FermiQuiz.Proofs.HintPool
import FermiQuiz.Proofs.Number.Arithmetic

/-!
# Drawing questions

What one draw can bring, and from it what a search and a whole run bring: questions about the
ratio of two facts that go together, with keys that are new. Nothing that is drawn can fail.
-/

namespace FermiQuiz

open Number (Elementary isPositive)
open Chance

/-! ### Pairs of facts -/

structure Askable (facts : List Fact) (f : Fact) : Prop where
  mem : f ∈ facts
  named : Text.isAllBlank f.name = false
  positive : isPositive f.quantity.value = true

structure Paired (facts : List Fact) (a b : Fact) : Prop where
  left : Askable facts a
  right : Askable facts b
  measurement : a.measurement = b.measurement
  units : a.quantity.units = b.quantity.units
  thing : a.thing ≠ b.thing

theorem Paired.symm {facts : List Fact} {a b : Fact} (h : Paired facts a b) : Paired facts b a :=
  ⟨h.right, h.left, h.measurement.symm, h.units.symm, h.thing.symm⟩

theorem mem_eligible_iff {facts : List Fact} {f : Fact} :
    f ∈ facts.filter Fact.isEligible ↔ Askable facts f := by
  rw [List.mem_filter, Fact.isEligible, Bool.and_eq_true, Bool.not_eq_true']
  constructor
  · rintro ⟨mem, named, positive⟩
    exact ⟨mem, named, positive⟩
  · rintro ⟨mem, named, positive⟩
    exact ⟨mem, named, positive⟩

theorem comparableWith_iff {a b : Fact} : a.comparableWith b = true ↔
    a.measurement = b.measurement ∧ a.thing ≠ b.thing ∧
      a.quantity.units = b.quantity.units := by
  simp [Fact.comparableWith, and_assoc]

theorem paired_of_mem_sources {facts : List Fact} {source : Source} {partner : Fact}
    (listed : source ∈ sources (facts.filter Fact.isEligible))
    (member : partner ∈ source.partners) : Paired facts source.fact partner := by
  obtain ⟨f, eligible, made⟩ := List.mem_filterMap.mp listed
  dsimp only at made
  split at made
  · cases made
    obtain ⟨partner_eligible, comparable⟩ := List.mem_filter.mp member
    obtain ⟨measurement, thing, units⟩ := comparableWith_iff.mp comparable
    exact ⟨mem_eligible_iff.mp eligible, mem_eligible_iff.mp partner_eligible, measurement, units,
      thing⟩
  · cases made

theorem paired_iff {facts : List Fact} {a b : Fact} : Paired facts a b ↔
    Askable facts a ∧ Askable facts b ∧ a.comparableWith b = true := by
  rw [comparableWith_iff]
  constructor
  · rintro ⟨left, right, measurement, units, thing⟩
    exact ⟨left, right, measurement, thing, units⟩
  · rintro ⟨left, right, measurement, thing, units⟩
    exact ⟨left, right, measurement, units, thing⟩

/-- There is a fact to draw exactly if two facts go together. -/
theorem length_sources_pos_iff {facts : List Fact} :
    0 < (sources (facts.filter Fact.isEligible)).length ↔ ∃ a b, Paired facts a b := by
  rw [List.length_pos_iff_exists_mem]
  constructor
  · rintro ⟨source, listed⟩
    obtain ⟨partner, member⟩ := List.length_pos_iff_exists_mem.mp source.partnered
    exact ⟨source.fact, partner, paired_of_mem_sources listed member⟩
  · rintro ⟨a, b, paired⟩
    obtain ⟨left, right, comparable⟩ := paired_iff.mp paired
    have partnered : 0 < ((facts.filter Fact.isEligible).filter a.comparableWith).length :=
      List.length_pos_of_mem (List.mem_filter.mpr ⟨mem_eligible_iff.mpr right, comparable⟩)
    exact ⟨⟨a, _, partnered⟩, List.mem_filterMap.mpr
      ⟨a, mem_eligible_iff.mpr left, dif_pos partnered⟩⟩

theorem Paired.ratio_eq {facts : List Fact} {a b : Fact} (h : Paired facts a b) :
    a.quantity.ratio b.quantity = .ok (a.quantity.value / b.quantity.value) := by
  rw [Quantity.ratio, h.units, bne_self_eq_false, if_neg Bool.false_ne_true,
    Number.beq_zero_of_isPositive h.right.positive, if_neg Bool.false_ne_true]

/-! ### New questions -/

def quotientQuestion (stamp : String) (a b : Fact) : Question :=
  ratioQuestion a b (a.quantity.value / b.quantity.value) stamp

/-- Questions of a run from keys that are known: each is about a pair, and no key comes twice. -/
structure Drawn (facts : List Fact) (stamp : String) (keys : Std.HashSet QuestionKey)
    (qs : List Question) : Prop where
  about : ∀ q ∈ qs, ∃ a b, Paired facts a b ∧ q = quotientQuestion stamp a b
  new : ∀ q ∈ qs, keys.contains q.key = false
  distinct : (qs.map Question.key).Nodup

theorem Drawn.nil {facts : List Fact} (stamp : String) (keys : Std.HashSet QuestionKey) :
    Drawn facts stamp keys [] :=
  ⟨by simp, by simp, by simp⟩

theorem Drawn.cons {facts : List Fact} {stamp : String} {keys : Std.HashSet QuestionKey}
    {a b : Fact} {qs : List Question} (paired : Paired facts a b)
    (new : keys.contains (ratioKey a b) = false)
    (rest : Drawn facts stamp (keys.insert (ratioKey a b)) qs) :
    Drawn facts stamp keys (quotientQuestion stamp a b :: qs) := by
  have apart : ∀ q ∈ qs, q.key ≠ ratioKey a b ∧ keys.contains q.key = false := by
    intro q member
    have unseen := rest.new q member
    rw [Std.HashSet.contains_insert, Bool.or_eq_false_iff, beq_eq_false_iff_ne] at unseen
    exact ⟨unseen.1.symm, unseen.2⟩
  refine ⟨?_, ?_, ?_⟩
  · rintro q member
    rcases List.mem_cons.mp member with rfl | member
    · exact ⟨a, b, paired, rfl⟩
    · exact rest.about q member
  · rintro q member
    rcases List.mem_cons.mp member with rfl | member
    · exact new
    · exact (apart q member).2
  · rw [List.map_cons, List.nodup_cons]
    refine ⟨fun repeated => ?_, rest.distinct⟩
    obtain ⟨q, member, same⟩ := List.mem_map.mp repeated
    exact (apart q member).1 same

theorem Drawn.concat {facts : List Fact} {stamp : String} {keys : Std.HashSet QuestionKey}
    {a b : Fact} {qs : List Question} (before : Drawn facts stamp keys qs)
    (paired : Paired facts a b) (new : keys.contains (ratioKey a b) = false)
    (apart : ratioKey a b ∉ qs.map Question.key) :
    Drawn facts stamp keys (qs ++ [quotientQuestion stamp a b]) := by
  refine ⟨?_, ?_, ?_⟩
  · rw [List.forall_mem_append, List.forall_mem_singleton]
    exact ⟨before.about, a, b, paired, rfl⟩
  · rw [List.forall_mem_append, List.forall_mem_singleton]
    exact ⟨before.new, new⟩
  · rw [List.map_append, List.map_singleton, List.nodup_append]
    refine ⟨before.distinct, List.nodup_singleton _, ?_⟩
    rintro k member k' last rfl
    rw [List.mem_singleton.mp last] at member
    exact apart member

/-! ### One draw -/

section

variable {σ : Type} [WordSource σ] [Elementary] {facts : List Fact}

theorem orient_spec {a b : Fact} (h : Paired facts a b) (s : σ) :
    ∃ a' b' s', orient a b s = (.ok (a', b'), s') ∧ Paired facts a' b' := by
  unfold orient
  rw [h.ratio_eq]
  dsimp only
  split
  · -- A small ratio may be turned around, which leaves a pair.
    generalize unit s = rolled
    split
    · exact ⟨b, a, rolled.2, rfl, h.symm⟩
    · exact ⟨a, b, rolled.2, rfl, h⟩
  · exact ⟨a, b, s, rfl, h⟩

abbrev poolOf (facts : List Fact) : List Source := sources (facts.filter Fact.isEligible)

variable (nonempty : 0 < (poolOf facts).length)

theorem drawPair_spec (s : σ) :
    ∃ a b s', drawPair (poolOf facts) nonempty s = (.ok (a, b), s') ∧ Paired facts a b := by
  unfold drawPair
  have listed := choose_mem (poolOf facts) nonempty s
  generalize choose (poolOf facts) nonempty s = drawn at listed
  obtain ⟨source, s₁⟩ := drawn
  have member := choose_mem source.partners source.partnered s₁
  dsimp only
  generalize choose source.partners source.partnered s₁ = drawn at member
  exact orient_spec (paired_of_mem_sources listed member) drawn.2

/-! ### The search for a new question -/

theorem drawNew_succ {a b : Fact} {s s' : σ} (stamp : String) (keys : Std.HashSet QuestionKey)
    (tries : ℕ) (drawn : drawPair (poolOf facts) nonempty s = (.ok (a, b), s'))
    (paired : Paired facts a b) :
    drawNew (poolOf facts) nonempty stamp keys (tries + 1) s =
      if keys.contains (ratioKey a b) then drawNew (poolOf facts) nonempty stamp keys tries s'
      else (.ok (some (quotientQuestion stamp a b)), s') := by
  rw [drawNew, drawn]
  dsimp only
  rw [paired.ratio_eq]
  rfl

/-- A search ends without a question, or with one about a pair whose key is new. -/
theorem drawNew_spec (stamp : String) (keys : Std.HashSet QuestionKey) (tries : ℕ) (s : σ) :
    (∃ s', drawNew (poolOf facts) nonempty stamp keys tries s = (.ok none, s')) ∨
      ∃ a b s', drawNew (poolOf facts) nonempty stamp keys tries s =
          (.ok (some (quotientQuestion stamp a b)), s') ∧
        Paired facts a b ∧ keys.contains (ratioKey a b) = false := by
  induction tries generalizing s with
  | zero => exact Or.inl ⟨s, rfl⟩
  | succ tries ih =>
    obtain ⟨a, b, s', drawn, paired⟩ := drawPair_spec nonempty s
    rw [drawNew_succ nonempty stamp keys tries drawn paired]
    by_cases seen : keys.contains (ratioKey a b) = true
    · rw [if_pos seen]
      exact ih s'
    · rw [if_neg seen]
      exact Or.inr ⟨a, b, s', rfl, paired, Bool.not_eq_true _ ▸ seen⟩

theorem exists_drawNew_of_new (stamp : String) {keys : Std.HashSet QuestionKey}
    (new : ∀ a b, Paired facts a b → keys.contains (ratioKey a b) = false) (tries : ℕ) (s : σ) :
    ∃ a b s', drawNew (poolOf facts) nonempty stamp keys (tries + 1) s =
        (.ok (some (quotientQuestion stamp a b)), s') ∧ Paired facts a b := by
  obtain ⟨a, b, s', drawn, paired⟩ := drawPair_spec nonempty s
  refine ⟨a, b, s', ?_, paired⟩
  rw [drawNew_succ nonempty stamp keys tries drawn paired, new a b paired]
  rfl

/-! ### A run -/

theorem drawSeveral_spec (stamp : String) (maxTries count : ℕ) (keys : Std.HashSet QuestionKey)
    (s : σ) :
    ∃ qs s', drawSeveral (poolOf facts) nonempty stamp maxTries count keys s = (.ok qs, s') ∧
      qs.length ≤ count ∧ Drawn facts stamp keys qs := by
  induction count generalizing keys s with
  | zero => exact ⟨[], s, rfl, le_rfl, .nil stamp keys⟩
  | succ count ih =>
    rw [drawSeveral]
    rcases drawNew_spec nonempty stamp keys maxTries s with
      ⟨s', ended⟩ | ⟨a, b, s', found, paired, new⟩
    · rw [ended]
      exact ⟨[], s', rfl, Nat.zero_le _, .nil stamp keys⟩
    · rw [found]
      obtain ⟨qs, s'', more, length, drawn⟩ := ih (keys.insert (ratioKey a b)) s'
      have key : (quotientQuestion stamp a b).key = ratioKey a b := key_ratioQuestion ..
      simp only [key, more]
      exact ⟨_, s'', rfl, Nat.succ_le_succ length, drawn.cons paired new⟩

end

end FermiQuiz
