import Mathlib
import FermiQuiz.Density
import FermiQuiz.Proofs.FactSet
import FermiQuiz.Proofs.Text.Bytes

/-!
# Derived facts

Deriving qualifies what is bare and adds the densities that are missing. What it qualified is bare
no more and what it added is missing no more, so deriving again changes nothing. Facts are told
apart as before, unless a bare specifier is qualified to one that is taken already.
-/

namespace FermiQuiz

/-! ### Qualified facts -/

namespace Fact

def IsBare (f : Fact) : Prop := f.specifier = "min" ∨ f.specifier = "max"

/-- What deriving makes of a fact. -/
inductive Qualifies (f : Fact) : Fact → Prop
  | min (bare : f.specifier = "min") : Qualifies f { f with specifier := "min " ++ f.measurement }
  | max (bare : f.specifier = "max") : Qualifies f { f with specifier := "max " ++ f.measurement }
  | other (plain : ¬ f.IsBare) : Qualifies f f

/-- When `f` is qualified, it gets the key of `g`. -/
structure ClashesWith (f g : Fact) : Prop where
  bare : f.IsBare
  thing : f.thing = g.thing
  measurement : f.measurement = g.measurement
  specifier : f.specifier ++ " " ++ f.measurement = g.specifier

variable {f g : Fact}

theorem qualify_of_isBare (bare : f.IsBare) :
    f.qualify = { f with specifier := f.specifier ++ " " ++ f.measurement } :=
  if_pos (by simpa [IsBare] using bare)

theorem qualify_of_not_isBare (bare : ¬ f.IsBare) : f.qualify = f :=
  if_neg (by simpa [IsBare] using bare)

theorem thing_qualify (f : Fact) : f.qualify.thing = f.thing := by
  unfold qualify
  split <;> rfl

theorem measurement_qualify (f : Fact) : f.qualify.measurement = f.measurement := by
  unfold qualify
  split <;> rfl

theorem qualifies_qualify (f : Fact) : f.Qualifies f.qualify := by
  by_cases bare : f.IsBare
  · rw [qualify_of_isBare bare]
    rcases bare with min | max
    · rw [min]
      exact .min min
    · rw [max]
      exact .max max
  · rw [qualify_of_not_isBare bare]
    exact .other bare

theorem not_isBare_qualify (f : Fact) : ¬ f.qualify.IsBare := by
  by_cases bare : f.IsBare
  · rw [qualify_of_isBare bare]
    intro again
    -- The new specifier is longer than any bare one.
    have long : 4 ≤ (f.specifier ++ " " ++ f.measurement).length := by
      rw [String.length_append, String.length_append]
      rcases bare with same | same <;> rw [same] <;> exact Nat.le_add_right 4 _
    rcases again with same | same <;> dsimp only at same <;> rw [same] at long <;>
      exact absurd long (by decide)
  · rwa [qualify_of_not_isBare bare]

theorem qualify_qualify (f : Fact) : f.qualify.qualify = f.qualify :=
  qualify_of_not_isBare f.not_isBare_qualify

theorem key_qualify_of_isBare (bare : f.IsBare) : f.qualify.key =
    ⟨f.thing, f.measurement, f.specifier ++ " " ++ f.measurement⟩ := by
  rw [qualify_of_isBare bare]
  rfl

theorem isBare_congr (same : f.key = g.key) : f.IsBare ↔ g.IsBare := by
  have specifier : f.specifier = g.specifier := congrArg FactKey.specifier same
  rw [IsBare, IsBare, specifier]

theorem key_qualify_congr (same : f.key = g.key) : f.qualify.key = g.qualify.key := by
  by_cases bare : f.IsBare
  · rw [key_qualify_of_isBare bare, key_qualify_of_isBare ((isBare_congr same).mp bare)]
    rw [key, key, FactKey.mk.injEq] at same
    obtain ⟨thing, measurement, specifier⟩ := same
    rw [thing, measurement, specifier]
  · rwa [qualify_of_not_isBare bare, qualify_of_not_isBare ((isBare_congr same).not.mp bare)]

theorem key_eq_of_isBare (bare : f.IsBare) (bare' : g.IsBare)
    (same : f.qualify.key = g.qualify.key) : f.key = g.key := by
  rw [key_qualify_of_isBare bare, key_qualify_of_isBare bare', FactKey.mk.injEq] at same
  obtain ⟨thing, measurement, specifier⟩ := same
  rw [measurement, String.append_left_inj, String.append_left_inj] at specifier
  rw [key, key, thing, measurement, specifier]

theorem clashesWith_iff : f.ClashesWith g ↔ f.IsBare ∧ f.qualify.key = g.key := by
  constructor
  · rintro ⟨bare, thing, measurement, specifier⟩
    rw [key_qualify_of_isBare bare, key, FactKey.mk.injEq]
    exact ⟨bare, thing, measurement, specifier⟩
  · rintro ⟨bare, same⟩
    rw [key_qualify_of_isBare bare, key, FactKey.mk.injEq] at same
    obtain ⟨thing, measurement, specifier⟩ := same
    exact ⟨bare, thing, measurement, specifier⟩

theorem ClashesWith.not_isBare (h : f.ClashesWith g) : ¬ g.IsBare :=
  (isBare_congr (clashesWith_iff.mp h).2).not.mp f.not_isBare_qualify

/-- Qualifying gives two facts one key only if they had one, or if one of them clashes with the
other. -/
theorem key_qualify_eq_iff : f.qualify.key = g.qualify.key ↔
    f.key = g.key ∨ f.ClashesWith g ∨ g.ClashesWith f := by
  constructor
  · intro same
    by_cases bare : f.IsBare <;> by_cases bare' : g.IsBare
    · exact Or.inl (key_eq_of_isBare bare bare' same)
    · rw [qualify_of_not_isBare bare'] at same
      exact Or.inr (Or.inl (clashesWith_iff.mpr ⟨bare, same⟩))
    · rw [qualify_of_not_isBare bare] at same
      exact Or.inr (Or.inr (clashesWith_iff.mpr ⟨bare', same.symm⟩))
    · rw [qualify_of_not_isBare bare, qualify_of_not_isBare bare'] at same
      exact Or.inl same
  · rintro (same | clash | clash)
    · exact key_qualify_congr same
    · rw [qualify_of_not_isBare clash.not_isBare, (clashesWith_iff.mp clash).2]
    · rw [qualify_of_not_isBare clash.not_isBare, (clashesWith_iff.mp clash).2]

end Fact

/-! ### The first with a key -/

/-- Of the facts with a key, `f` is the first one listed. -/
def IsFirstWithKey (facts : List Fact) (key : FactKey) (f : Fact) : Prop :=
  ∃ before after, facts = before ++ f :: after ∧ f.key = key ∧ ∀ g ∈ before, g.key ≠ key

section

variable {facts added : List Fact} {key : FactKey} {thing measurement : String} {d f : Fact}

theorem find?_key_eq_some_iff :
    facts.find? (·.key == key) = some f ↔ IsFirstWithKey facts key f := by
  rw [List.find?_eq_some_iff_append, IsFirstWithKey]
  constructor
  · rintro ⟨same, before, after, parts, others⟩
    exact ⟨before, after, parts, eq_of_beq same, fun g member => by simpa using others g member⟩
  · rintro ⟨before, after, parts, same, others⟩
    exact ⟨beq_iff_eq.mpr same, before, after, parts, fun g member => by
      simpa using others g member⟩

theorem Fact.key_qualify_eq_plain_iff :
    f.qualify.key = ⟨thing, measurement, ""⟩ ↔ f.key = ⟨thing, measurement, ""⟩ := by
  by_cases bare : f.IsBare
  · rw [key_qualify_of_isBare bare, key, FactKey.mk.injEq, FactKey.mk.injEq]
    refine iff_of_false ?_ ?_
    · simp
    · rintro ⟨-, -, plain⟩
      rcases bare with same | same <;> rw [plain] at same <;> exact absurd same (by decide)
  · rw [qualify_of_not_isBare bare]

/-- A fact without a specifier is found where it was. -/
theorem isFirstWithKey_map_qualify_iff :
    IsFirstWithKey (facts.map Fact.qualify) ⟨thing, measurement, ""⟩ f ↔
      IsFirstWithKey facts ⟨thing, measurement, ""⟩ f := by
  have plain : (fun f : Fact => f.key == ⟨thing, measurement, ""⟩) ∘ Fact.qualify =
      fun f => f.key == ⟨thing, measurement, ""⟩ := by
    funext f
    rw [Function.comp_apply, Bool.eq_iff_iff, beq_iff_eq, beq_iff_eq, Fact.key_qualify_eq_plain_iff]
  have kept {g : Fact} (found : facts.find? (·.key == ⟨thing, measurement, ""⟩) = some g) :
      g.qualify = g := by
    have same := List.find?_some found
    have none : g.specifier = "" := congrArg FactKey.specifier (beq_iff_eq.mp same)
    refine Fact.qualify_of_not_isBare ?_
    rw [Fact.IsBare, none]
    decide
  rw [← find?_key_eq_some_iff, ← find?_key_eq_some_iff, List.find?_map, plain,
    Option.map_eq_some_iff]
  constructor
  · rintro ⟨g, found, rfl⟩
    rwa [kept found]
  · intro found
    exact ⟨f, found, kept found⟩

theorem isFirstWithKey_of_append (others : ∀ g ∈ added, g.key ≠ key)
    (first : IsFirstWithKey (facts ++ added) key f) : IsFirstWithKey facts key f := by
  have none : added.find? (·.key == key) = none := by
    rw [List.find?_eq_none]
    simpa using others
  rwa [← find?_key_eq_some_iff, List.find?_append, none, Option.or_none,
    find?_key_eq_some_iff] at first

theorem canonical?_filter (facts : List Fact) (thing measurement : String) :
    canonical? (facts.filter (·.thing == thing)) measurement =
      facts.find? (·.key == ⟨thing, measurement, ""⟩) := by
  rw [canonical?, List.find?_filter]
  congr 1
  funext f
  rw [Bool.eq_iff_iff]
  simp [Fact.key]

/-! ### Densities -/

/-- `d` is the density of a thing that has a mass and a volume but no density. -/
@[mk_iff] structure IsMissingDensity (facts : List Fact) (d : Fact) : Prop where
  missing : ∀ f ∈ facts, f.thing = d.thing → f.measurement ≠ "density"
  computed : ∃ mass volume, IsFirstWithKey facts ⟨d.thing, "mass", ""⟩ mass ∧
    IsFirstWithKey facts ⟨d.thing, "volume", ""⟩ volume ∧ ¬ volume.quantity.value ≤ 0.0 ∧ d = {
      thing := d.thing
      measurement := "density"
      specifier := "avg"
      quantity := ⟨mass.quantity.value / volume.quantity.value,
        mass.quantity.units ++ "/" ++ volume.quantity.units⟩
      name := "average density of " ++ d.thing
      note := "auto" }

theorem missingDensity?_eq_some_iff :
    missingDensity? thing (facts.filter (·.thing == thing)) = some d ↔
      d.thing = thing ∧ IsMissingDensity facts d := by
  have present : (facts.filter (·.thing == thing)).any (·.measurement == "density") = true ↔
      ∃ f ∈ facts, f.thing = thing ∧ f.measurement = "density" := by
    simp
  unfold missingDensity?
  rw [canonical?_filter, canonical?_filter]
  split
  · next has =>
    obtain ⟨f, member, same, is_density⟩ := present.mp has
    refine iff_of_false (by simp) ?_
    rintro ⟨rfl, missing, -⟩
    exact missing f member same is_density
  · next lacks =>
    constructor
    · intro h
      obtain ⟨mass, mass_found, h⟩ := Option.bind_eq_some_iff.mp h
      obtain ⟨volume, volume_found, h⟩ := Option.bind_eq_some_iff.mp h
      split at h
      · cases h
      · next proper =>
        cases h
        refine ⟨rfl, fun f member same is_density => ?_, mass, volume,
          find?_key_eq_some_iff.mp mass_found, find?_key_eq_some_iff.mp volume_found, proper, rfl⟩
        exact lacks (present.mpr ⟨f, member, same, is_density⟩)
    · rintro ⟨rfl, -, mass, volume, mass_first, volume_first, proper, made⟩
      rw [find?_key_eq_some_iff.mpr mass_first, find?_key_eq_some_iff.mpr volume_first]
      simp only [Option.bind_eq_bind, Option.bind_some, if_neg proper]
      rw [made]
      rfl

def missingDensities (facts : List Fact) : List Fact :=
  (things facts).filterMap fun thing =>
    missingDensity? thing (facts.filter (·.thing == thing))

theorem deriveFacts_eq (facts : List Fact) : deriveFacts facts =
    facts.map Fact.qualify ++ missingDensities (facts.map Fact.qualify) := rfl

theorem mem_things_iff : thing ∈ things facts ↔ ∃ f ∈ facts, f.thing = thing := by
  rw [things, mem_eraseReps, List.mem_mergeSort, List.mem_map]

theorem mem_missingDensities_iff : d ∈ missingDensities facts ↔ IsMissingDensity facts d := by
  rw [missingDensities, List.mem_filterMap]
  simp only [missingDensity?_eq_some_iff]
  constructor
  · rintro ⟨thing, -, -, density⟩
    exact density
  · intro density
    obtain ⟨mass, -, ⟨before, after, parts, same, -⟩, -⟩ := density.computed
    refine ⟨d.thing, mem_things_iff.mpr ⟨mass, ?_, congrArg FactKey.thing same⟩, rfl, density⟩
    rw [parts]
    exact List.mem_append_right _ List.mem_cons_self

theorem pairwise_things (facts : List Fact) : (things facts).Pairwise (· < ·) := by
  have sorted : ((facts.map Fact.thing).mergeSort fun a b => decide (a ≤ b)).Pairwise (· ≤ ·) := by
    have total (a b : String) : (decide (a ≤ b) || decide (b ≤ a)) = true := by
      simpa using le_total a b
    have trans (a b c : String) (first : decide (a ≤ b) = true) (second : decide (b ≤ c) = true) :
        decide (a ≤ c) = true := by
      simp only [decide_eq_true_eq] at first second ⊢
      exact first.trans second
    exact (List.pairwise_mergeSort trans total (facts.map Fact.thing)).imp of_decide_eq_true
  have distinct := nodup_eraseReps (fun _ _ => le_antisymm) sorted
  exact ((sorted.sublist (eraseReps_sublist _)).and distinct).imp fun both =>
    lt_of_le_of_ne both.1 both.2

theorem pairwise_missingDensities (facts : List Fact) :
    (missingDensities facts).Pairwise fun d e => d.thing < e.thing := by
  rw [missingDensities, List.pairwise_filterMap]
  refine (pairwise_things facts).imp fun less d made e made' => ?_
  rwa [(missingDensity?_eq_some_iff.mp made).1, (missingDensity?_eq_some_iff.mp made').1]

theorem isMissingDensity_map_qualify_iff :
    IsMissingDensity (facts.map Fact.qualify) d ↔ IsMissingDensity facts d := by
  simp only [isMissingDensity_iff, isFirstWithKey_map_qualify_iff, List.forall_mem_map,
    Fact.thing_qualify, Fact.measurement_qualify]

theorem IsMissingDensity.measurement_eq (h : IsMissingDensity facts d) :
    d.measurement = "density" := by
  obtain ⟨_, _, -, -, -, made⟩ := h.computed
  rw [made]

theorem IsMissingDensity.not_isBare (h : IsMissingDensity facts d) : ¬ d.IsBare := by
  have specifier : d.specifier = "avg" := by
    obtain ⟨_, _, -, -, -, made⟩ := h.computed
    rw [made]
  rw [Fact.IsBare, specifier]
  decide

theorem IsMissingDensity.of_append (densities : ∀ g ∈ added, g.measurement = "density")
    (h : IsMissingDensity (facts ++ added) d) : IsMissingDensity facts d := by
  have other {measurement : String} (different : measurement ≠ "density") :
      ∀ g ∈ added, g.key ≠ ⟨d.thing, measurement, ""⟩ := by
    intro g member same
    exact different ((congrArg FactKey.measurement same).symm.trans (densities g member))
  obtain ⟨missing, mass, volume, mass_first, volume_first, rest⟩ := h
  exact ⟨fun f member => missing f (List.mem_append_left _ member), mass, volume,
    isFirstWithKey_of_append (other (by decide)) mass_first,
    isFirstWithKey_of_append (other (by decide)) volume_first, rest⟩

theorem map_qualify_deriveFacts (facts : List Fact) :
    (deriveFacts facts).map Fact.qualify = deriveFacts facts := by
  refine (List.map_congr_left fun f member => ?_).trans (List.map_id _)
  rcases List.mem_append.mp member with member | member
  · obtain ⟨g, -, rfl⟩ := List.mem_map.mp member
    exact g.qualify_qualify
  · exact Fact.qualify_of_not_isBare (mem_missingDensities_iff.mp member).not_isBare

theorem missingDensities_deriveFacts (facts : List Fact) :
    missingDensities (deriveFacts facts) = [] := by
  refine List.eq_nil_iff_forall_not_mem.mpr fun d member => ?_
  have still := mem_missingDensities_iff.mp member
  -- Missing after all that was added, the density was missing before, and so it was added.
  have before : IsMissingDensity (facts.map Fact.qualify) d :=
    still.of_append fun g member => (mem_missingDensities_iff.mp member).measurement_eq
  exact still.missing d (List.mem_append_right _ (mem_missingDensities_iff.mpr before)) rfl
    before.measurement_eq

end

/-- Deriving keeps the facts in their order and qualifies the bare ones, then adds what densities
are missing, in the order of their things as bytes. Deriving again changes nothing. -/
theorem deriveFacts_adds_missing_densities (facts : List Fact) :
    ∃ qualified added, deriveFacts facts = qualified ++ added ∧
      List.Forall₂ Fact.Qualifies facts qualified ∧
      (∀ d, d ∈ added ↔ IsMissingDensity facts d) ∧
      added.Pairwise (fun d e => Text.bytes d.thing < Text.bytes e.thing) ∧
      deriveFacts (deriveFacts facts) = deriveFacts facts := by
  refine ⟨_, _, deriveFacts_eq facts, ?_, fun d => ?_, ?_, ?_⟩
  · exact List.forall₂_map_right_iff.mpr (List.forall₂_same.mpr fun f _ => f.qualifies_qualify)
  · rw [mem_missingDensities_iff, isMissingDensity_map_qualify_iff]
  · exact (pairwise_missingDensities _).imp fun less => Text.strictMono_bytes less
  · rw [deriveFacts_eq (deriveFacts facts), map_qualify_deriveFacts, missingDensities_deriveFacts,
      List.append_nil]

/-! ### Keys -/

section

variable {facts : List Fact}

theorem nodup_keys_map_qualify_iff : ((facts.map Fact.qualify).map Fact.key).Nodup ↔
    (facts.map Fact.key).Nodup ∧ ∀ f ∈ facts, ∀ g ∈ facts, ¬ f.ClashesWith g := by
  rw [List.map_map]
  constructor
  · intro distinct
    refine ⟨?_, fun f f_mem g g_mem clash => ?_⟩
    · rw [List.Nodup, List.pairwise_map] at distinct ⊢
      exact distinct.imp fun apart same => apart (Fact.key_qualify_congr same)
    · have same := List.inj_on_of_nodup_map distinct f_mem g_mem
        (Fact.key_qualify_eq_iff.mpr (Or.inr (Or.inl clash)))
      exact clash.not_isBare (same ▸ clash.bare)
  · rintro ⟨keys, free⟩
    refine (List.nodup_map_iff_inj_on keys.of_map).mpr fun f f_mem g g_mem same => ?_
    rcases Fact.key_qualify_eq_iff.mp same with same | clash | clash
    · exact List.inj_on_of_nodup_map keys f_mem g_mem same
    · exact absurd clash (free f f_mem g g_mem)
    · exact absurd clash (free g g_mem f f_mem)

theorem nodup_keys_missingDensities (facts : List Fact) :
    ((missingDensities facts).map Fact.key).Nodup := by
  rw [List.Nodup, List.pairwise_map]
  exact (pairwise_missingDensities facts).imp fun less same =>
    less.ne (congrArg FactKey.thing same)

theorem key_ne_of_isMissingDensity {f d : Fact} (member : f ∈ facts)
    (missing : IsMissingDensity facts d) : f.key ≠ d.key := by
  intro same
  rw [Fact.key, Fact.key, FactKey.mk.injEq, missing.measurement_eq] at same
  exact missing.missing f member same.1 same.2.1

/-- Facts are told apart by their keys after deriving exactly if they were before and no bare one
clashes with another. -/
theorem nodup_keys_deriveFacts_iff (facts : List Fact) :
    ((deriveFacts facts).map Fact.key).Nodup ↔
      (facts.map Fact.key).Nodup ∧ ∀ f ∈ facts, ∀ g ∈ facts, ¬ f.ClashesWith g := by
  have apart : ∀ k ∈ (facts.map Fact.qualify).map Fact.key,
      ∀ l ∈ (missingDensities (facts.map Fact.qualify)).map Fact.key, k ≠ l := by
    simp only [List.forall_mem_map (f := Fact.key), mem_missingDensities_iff]
    exact fun f member d missing => key_ne_of_isMissingDensity member missing
  rw [deriveFacts_eq, List.map_append, List.nodup_append, nodup_keys_map_qualify_iff,
    and_iff_left ⟨nodup_keys_missingDensities _, apart⟩]

end

/-- A greatest depth in general, and one that goes by its full name. -/
def pacificDepths : List Fact :=
  let depth : Fact :=
    { quantity := ⟨10994.0, "m"⟩, thing := "Pacific Ocean", measurement := "depth" }
  [{ depth with specifier := "max" },
    { depth with quantity := ⟨10935.0, "m"⟩, specifier := "max depth" }]

/-- The general one gets the name of the other. -/
theorem keys_deriveFacts_pacificDepths : (pacificDepths.map Fact.key).Nodup ∧
    ¬ ((deriveFacts pacificDepths).map Fact.key).Nodup := by
  refine ⟨by decide, fun distinct => ?_⟩
  have free := ((nodup_keys_deriveFacts_iff pacificDepths).mp distinct).2
  exact free _ List.mem_cons_self _ (List.mem_cons_of_mem _ List.mem_cons_self)
    ⟨Or.inr rfl, rfl, rfl, by decide⟩

end FermiQuiz
