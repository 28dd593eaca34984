import Mathlib
import FermiQuiz.Proofs.Generation.Added

/-!
# The draws of a generation

A generation taken draw by draw. A search holds the questions it has found and counts the draws
since the last of them, which all repeated a question that was known. It goes on while questions are
wanted and not too many draws in a row were repeats. A generation ends where its search does, and
what bounds the search is kept by every single draw.
-/

namespace FermiQuiz

open Number (Elementary)
open Chance

/-! ### How many questions there are to find -/

/-- The keys of the questions about two facts that are not there yet. -/
def openKeys (facts : List Fact) (existing : List Question) : Finset QuestionKey :=
  let eligible := facts.filter Fact.isEligible
  (((eligible ×ˢ eligible).filter fun d => d.1.comparableWith d.2).map
    fun d => ratioKey d.1 d.2).toFinset \ (existing.map Question.key).toFinset

section

variable {facts : List Fact} {existing : List Question} {stamp : String}

theorem mem_openKeys_iff {key : QuestionKey} : key ∈ openKeys facts existing ↔
    (∃ a b, Paired facts a b ∧ ratioKey a b = key) ∧ key ∉ existing.map Question.key := by
  rw [openKeys, Finset.mem_sdiff, List.mem_toFinset, List.mem_toFinset, List.mem_map]
  refine and_congr_left' ?_
  rw [Prod.exists]
  refine exists₂_congr fun a b => and_congr_left' ?_
  rw [List.mem_filter, List.mem_product, mem_eligible_iff, mem_eligible_iff, paired_iff,
    and_assoc]

/-- A search finds no more questions than there are keys to be had. -/
theorem Drawn.length_le {qs : List Question} (drawn : Drawn facts stamp (keysOf existing) qs) :
    qs.length ≤ (openKeys facts existing).card := by
  have distinct : (qs.map Question.key).toFinset.card = qs.length := by
    rw [List.toFinset_card_of_nodup drawn.distinct, List.length_map]
  rw [← distinct]
  refine Finset.card_le_card fun key listed => ?_
  obtain ⟨q, member, rfl⟩ := List.mem_map.mp (List.mem_toFinset.mp listed)
  obtain ⟨a, b, paired, made⟩ := drawn.about q member
  have unseen := drawn.new q member
  rw [contains_keysOf, ← Bool.not_eq_true, List.contains_iff_mem] at unseen
  exact mem_openKeys_iff.mpr ⟨⟨a, b, paired, by rw [made]; rfl⟩, unseen⟩

end

/-! ### Searches -/

/-- Where a generation stands between two draws. -/
structure Search (σ : Type) where
  added : List Question
  draws : List (Fact × Fact)
  /-- The draws since the last new question. -/
  repeats : ℕ
  stream : σ

namespace Search

variable {σ : Type}

def start (s : σ) : Search σ := ⟨[], [], 0, s⟩

def GoesOn (settings : GenerationSettings) (p : Search σ) : Prop :=
  p.added.length < settings.count ∧ p.repeats < settings.maxTries

def Knows (existing : List Question) (p : Search σ) (key : QuestionKey) : Prop :=
  key ∈ (existing ++ p.added).map Question.key

def repeated (p : Search σ) (a b : Fact) (s : σ) : Search σ :=
  ⟨p.added, p.draws ++ [(a, b)], p.repeats + 1, s⟩

def found (p : Search σ) (stamp : String) (a b : Fact) (s : σ) : Search σ :=
  ⟨p.added ++ [quotientQuestion stamp a b], p.draws ++ [(a, b)], 0, s⟩

end Search

section

variable {σ : Type} [WordSource σ] [Elementary] {facts : List Fact}
  (nonempty : 0 < (poolOf facts).length) (existing : List Question)
  (settings : GenerationSettings) (stamp : String)

/-- One draw of a search that goes on. -/
inductive Search.Step (p : Search σ) : Search σ → Prop
  | repeated {a b : Fact} {s : σ} (goes_on : p.GoesOn settings)
      (drawn : drawPair (poolOf facts) nonempty p.stream = (.ok (a, b), s))
      (known : p.Knows existing (ratioKey a b)) : Step p (p.repeated a b s)
  | found {a b : Fact} {s : σ} (goes_on : p.GoesOn settings)
      (drawn : drawPair (poolOf facts) nonempty p.stream = (.ok (a, b), s))
      (new : ¬ p.Knows existing (ratioKey a b)) : Step p (p.found stamp a b s)

abbrev Search.Runs : Search σ → Search σ → Prop :=
  Relation.ReflTransGen (Search.Step nonempty existing settings stamp)

/-! ### One draw -/

variable {nonempty existing settings stamp}

theorem paired_of_drawPair {a b : Fact} {s s' : σ}
    (drawn : drawPair (poolOf facts) nonempty s = (.ok (a, b), s')) : Paired facts a b := by
  obtain ⟨a', b', s₁, drawn', paired⟩ := drawPair_spec nonempty s
  rw [drawn] at drawn'
  cases drawn'
  exact paired

namespace Search

variable {p q r last : Search σ} {s : σ}

theorem Step.goesOn (step : Step nonempty existing settings stamp p q) : p.GoesOn settings := by
  cases step with
  | repeated goes_on _ _ => exact goes_on
  | found goes_on _ _ => exact goes_on

variable (nonempty existing stamp) in
theorem GoesOn.exists_step (goes_on : p.GoesOn settings) :
    ∃ q, Step nonempty existing settings stamp p q := by
  obtain ⟨a, b, s, drawn, -⟩ := drawPair_spec nonempty p.stream
  by_cases known : p.Knows existing (ratioKey a b)
  · exact ⟨_, .repeated goes_on drawn known⟩
  · exact ⟨_, .found goes_on drawn known⟩

theorem Step.unique (first : Step nonempty existing settings stamp p q)
    (second : Step nonempty existing settings stamp p r) : q = r := by
  cases first with
  | repeated _ drawn known =>
    cases second with
    | repeated _ drawn' _ =>
      rw [drawn] at drawn'
      cases drawn'
      rfl
    | found _ drawn' new =>
      rw [drawn] at drawn'
      cases drawn'
      exact absurd known new
  | found _ drawn new =>
    cases second with
    | repeated _ drawn' known =>
      rw [drawn] at drawn'
      cases drawn'
      exact absurd known new
    | found _ drawn' _ =>
      rw [drawn] at drawn'
      cases drawn'
      rfl

/-- All that a search can reach lies before its end. -/
theorem Runs.to_last (reached : Runs nonempty existing settings stamp (start s) p)
    (ended : Runs nonempty existing settings stamp (start s) last)
    (stops : ¬ last.GoesOn settings) : Runs nonempty existing settings stamp p last := by
  have unique : Relator.RightUnique (Step (σ := σ) nonempty existing settings stamp) :=
    fun _ _ _ first second => first.unique second
  rcases Relation.ReflTransGen.total_of_right_unique unique reached ended with before | after
  · exact before
  · rcases after.cases_head with rfl | ⟨q, step, -⟩
    · exact .refl
    · exact absurd step.goesOn stops

variable (nonempty existing settings stamp) in
/-- What every draw of a search from `s` keeps. The last draws, as many as are counted, all repeat a
question that was known before the first of them. -/
structure Kept (s : σ) (p : Search σ) : Prop where
  drawn : Drawn facts stamp (keysOf existing) p.added
  repeats_le : p.repeats ≤ settings.maxTries
  draws_le : p.draws.length ≤ p.added.length * settings.maxTries + p.repeats
  streak : ∃ (q : Search σ) (window : List (Fact × Fact)),
    Runs nonempty existing settings stamp (start s) q ∧ q.added = p.added ∧
    p.draws = q.draws ++ window ∧ window.length = p.repeats ∧
    ∀ d ∈ window, q.Knows existing (ratioKey d.1 d.2)

theorem kept_start (s : σ) : Kept nonempty existing settings stamp s (start s) where
  drawn := .nil stamp _
  repeats_le := Nat.zero_le _
  draws_le := Nat.zero_le _
  streak := ⟨start s, [], .refl, rfl, rfl, rfl, List.forall_mem_nil _⟩

theorem Kept.step (runs : Runs nonempty existing settings stamp (start s) p)
    (kept : Kept nonempty existing settings stamp s p)
    (step : Step nonempty existing settings stamp p q) :
    Kept nonempty existing settings stamp s q := by
  have runs' := runs.tail step
  cases step with
  | @repeated a b _ goes_on drawn known =>
    refine ⟨kept.drawn, goes_on.2, ?_, ?_⟩
    · rw [Search.repeated, List.length_append, List.length_singleton, ← Nat.add_assoc]
      exact Nat.succ_le_succ kept.draws_le
    · obtain ⟨q, window, reached, same, draws, length, repeats⟩ := kept.streak
      refine ⟨q, window ++ [(a, b)], reached, same, ?_, ?_, ?_⟩
      · rw [Search.repeated, draws, List.append_assoc]
      · rw [Search.repeated, List.length_append, List.length_singleton, length]
      · rw [List.forall_mem_append, List.forall_mem_singleton]
        refine ⟨repeats, ?_⟩
        rw [Knows, same]
        exact known
  | found goes_on drawn new =>
    rw [Knows, List.map_append, List.mem_append, not_or] at new
    refine ⟨kept.drawn.concat (paired_of_drawPair drawn) ?_ new.2, Nat.zero_le _, ?_,
      ⟨_, [], runs', rfl, (List.append_nil _).symm, rfl, List.forall_mem_nil _⟩⟩
    · rw [contains_keysOf, ← Bool.not_eq_true, List.contains_iff_mem]
      exact new.1
    · have room := goes_on.2
      have bound := kept.draws_le
      rw [Search.found, List.length_append, List.length_append, List.length_singleton,
        List.length_singleton, Nat.add_mul, Nat.one_mul]
      omega

theorem Runs.kept (runs : Runs nonempty existing settings stamp (start s) p) :
    Kept nonempty existing settings stamp s p := by
  induction runs with
  | refl => exact kept_start s
  | tail runs step kept => exact kept.step runs step

/-! ### Where a generation ends -/

variable (nonempty stamp)

/-- A search of one new question is a stretch of draws that repeat known ones, and one that does
not unless the tries run out first. -/
theorem runs_drawNew {keys : Std.HashSet QuestionKey} {tries : ℕ}
    (wanted : p.added.length < settings.count) (room : p.repeats + tries = settings.maxTries)
    (same : ∀ key, keys.contains key = true ↔ p.Knows existing key) :
    ∃ q, Runs nonempty existing settings stamp p q ∧
      ((drawNew (poolOf facts) nonempty stamp keys tries p.stream = (.ok none, q.stream) ∧
          q.added = p.added ∧ q.repeats = settings.maxTries) ∨
        ∃ new, drawNew (poolOf facts) nonempty stamp keys tries p.stream =
            (.ok (some new), q.stream) ∧ q.added = p.added ++ [new] ∧ q.repeats = 0) := by
  induction tries generalizing p with
  | zero => exact ⟨p, .refl, Or.inl ⟨rfl, rfl, room⟩⟩
  | succ tries ih =>
    obtain ⟨a, b, s', drawn, paired⟩ := drawPair_spec nonempty p.stream
    have goes_on : p.GoesOn settings := ⟨wanted, by omega⟩
    rw [drawNew_succ nonempty stamp keys tries drawn paired]
    by_cases seen : keys.contains (ratioKey a b) = true
    · rw [if_pos seen]
      have step : Step nonempty existing settings stamp p (p.repeated a b s') :=
        .repeated goes_on drawn ((same _).mp seen)
      have room' : (p.repeated a b s').repeats + tries = settings.maxTries := by
        rw [← room]
        exact Nat.add_right_comm _ 1 tries
      obtain ⟨q, runs, ended⟩ := ih (p := p.repeated a b s') wanted room' same
      exact ⟨q, .head step runs, ended⟩
    · rw [if_neg seen]
      have step : Step nonempty existing settings stamp p (p.found stamp a b s') :=
        .found goes_on drawn (mt (same _).mpr seen)
      exact ⟨_, .single step, Or.inr ⟨_, rfl, rfl, rfl⟩⟩

theorem runs_drawSeveral {keys : Std.HashSet QuestionKey} {count : ℕ}
    (fresh : p.repeats = 0) (left : p.added.length + count = settings.count)
    (same : ∀ key, keys.contains key = true ↔ p.Knows existing key) :
    ∃ last qs, Runs nonempty existing settings stamp p last ∧ ¬ last.GoesOn settings ∧
      drawSeveral (poolOf facts) nonempty stamp settings.maxTries count keys p.stream =
        (.ok qs, last.stream) ∧ last.added = p.added ++ qs := by
  induction count generalizing p keys with
  | zero =>
    exact ⟨p, [], .refl, fun goes_on => by have := goes_on.1; omega, rfl, (List.append_nil _).symm⟩
  | succ count ih =>
    have wanted : p.added.length < settings.count := by omega
    have room : p.repeats + settings.maxTries = settings.maxTries := by rw [fresh, Nat.zero_add]
    obtain ⟨q, runs, ⟨ended, added, spent⟩ | ⟨new, found, added, spent⟩⟩ :=
      runs_drawNew nonempty stamp wanted room same
    · rw [drawSeveral, ended]
      refine ⟨q, [], runs, fun goes_on => ?_, rfl, by rw [added, List.append_nil]⟩
      exact absurd goes_on.2 (by omega)
    · have left' : q.added.length + count = settings.count := by
        rw [added, List.length_append, List.length_singleton]
        omega
      have same' : ∀ key, (keys.insert new.key).contains key = true ↔ q.Knows existing key := by
        intro key
        have one_more : (existing ++ q.added).map Question.key =
            (existing ++ p.added).map Question.key ++ [new.key] := by
          rw [added, ← List.append_assoc, List.map_append, List.map_singleton]
        rw [Std.HashSet.contains_insert, Bool.or_eq_true, beq_iff_eq, same, Knows, Knows, one_more,
          List.mem_append, List.mem_singleton, or_comm, eq_comm]
      obtain ⟨last, qs, runs', ended, more, total⟩ := ih spent left' same'
      rw [drawSeveral, found]
      dsimp only
      rw [more]
      refine ⟨last, new :: qs, runs.trans runs', ended, rfl, ?_⟩
      rw [total, added, List.append_assoc, List.singleton_append]

end Search

/-! ### Generations -/

/-- A generation over comparable facts ends where its search does. Wherever the search is, it has
made no more draws than the tries for each question it has found and for one more, it has found no
more questions than there are keys to be had, and it goes on to the same end. If it ends with fewer
questions than are wanted, the last draws, as many as the tries, all repeated questions that were
known before them. -/
theorem generate_search (facts : List Fact) (existing : List Question)
    (settings : GenerationSettings) (stamp : String) (s : σ) :
    (¬ (∃ a b, Paired facts a b) ∧ (generate facts existing settings stamp s).2 = s) ∨
    ∃ (nonempty : 0 < (poolOf facts).length) (last : Search σ),
      generate facts existing settings stamp s = (.ok ⟨existing, last.added⟩, last.stream) ∧
      Search.Runs nonempty existing settings stamp (.start s) last ∧ ¬ last.GoesOn settings ∧
      (∀ p, Search.Runs nonempty existing settings stamp (.start s) p →
        Search.Runs nonempty existing settings stamp p last ∧
        p.draws.length ≤ (p.added.length + 1) * settings.maxTries ∧
        p.added.length ≤ (openKeys facts existing).card) ∧
      (last.added.length < settings.count →
        ∃ (p : Search σ) (window : List (Fact × Fact)),
          Search.Runs nonempty existing settings stamp (.start s) p ∧
          last.draws = p.draws ++ window ∧ window.length = settings.maxTries ∧
          ∀ d ∈ window, p.Knows existing (ratioKey d.1 d.2)) := by
  by_cases nonempty : 0 < (poolOf facts).length
  · refine Or.inr ⟨nonempty, ?_⟩
    have same : ∀ key, (keysOf existing).contains key = true ↔
        (Search.start s).Knows existing key := by
      intro key
      rw [contains_keysOf, List.contains_iff_mem, Search.Knows, Search.start, List.append_nil]
    obtain ⟨last, qs, runs, ended, drawn, added⟩ := Search.runs_drawSeveral nonempty stamp
      (p := Search.start s) rfl (Nat.zero_add settings.count) same
    rw [Search.start, List.nil_append] at added
    refine ⟨last, ?_, runs, ended, fun p reached => ⟨reached.to_last runs ended, ?_, ?_⟩, ?_⟩
    · rw [added]
      exact generate_eq_ok_iff.mpr ⟨nonempty, rfl, drawn⟩
    · have kept := reached.kept
      rw [Nat.add_mul, Nat.one_mul]
      exact kept.draws_le.trans (Nat.add_le_add_left kept.repeats_le _)
    · exact reached.kept.drawn.length_le
    · intro fewer
      have spent : settings.maxTries ≤ last.repeats := by
        by_contra more
        exact ended ⟨fewer, Nat.lt_of_not_le more⟩
      obtain ⟨p, window, reached, -, draws, length, repeats⟩ := runs.kept.streak
      exact ⟨p, window, reached, draws, length.trans (runs.kept.repeats_le.antisymm spent),
        repeats⟩
  · refine Or.inl ⟨mt length_sources_pos_iff.mpr nonempty, ?_⟩
    unfold generate
    dsimp only
    rw [dif_neg nonempty]

end

/-- Of two lengths either can be asked for first, so a generation of five questions gives up after
three draws in a row that bring none. -/
theorem generate_search_of_two_lengths :
    ∃ (_ : Elementary) (nonempty : 0 < (poolOf [towerFact, ballFact]).length)
      (last p : Search Stream) (window : List (Fact × Fact)),
      generate [towerFact, ballFact] [] ⟨5, 3⟩ "now" (Stream.ofSeed 7) =
        (.ok ⟨[], last.added⟩, last.stream) ∧
      Search.Runs nonempty [] ⟨5, 3⟩ "now" (.start (Stream.ofSeed 7)) p ∧
      Search.Runs nonempty [] ⟨5, 3⟩ "now" p last ∧
      last.added.length ≤ 2 ∧ last.draws.length ≤ (last.added.length + 1) * 3 ∧
      last.draws = p.draws ++ window ∧ window.length = 3 ∧
      ∀ d ∈ window, p.Knows [] (ratioKey d.1 d.2) := by
  let elementary : Elementary := ⟨Number.steppedLog 10, Float.exp2⟩
  have nonempty : 0 < (poolOf [towerFact, ballFact]).length := by decide +kernel
  have two : (openKeys [towerFact, ballFact] []).card = 2 := by decide +kernel
  obtain ⟨unpaired, -⟩ | ⟨_, last, made, runs, -, bounds, gives_up⟩ :=
    generate_search [towerFact, ballFact] [] ⟨5, 3⟩ "now" (Stream.ofSeed 7)
  · exact absurd (length_sources_pos_iff.mp nonempty) unpaired
  · obtain ⟨-, draws, added⟩ := bounds last runs
    rw [two] at added
    obtain ⟨p, window, reached, split, length, repeats⟩ := gives_up (by change _ < 5; omega)
    exact ⟨elementary, nonempty, last, p, window, made, reached, (bounds p reached).1, added, draws,
      split, length, repeats⟩

end FermiQuiz
