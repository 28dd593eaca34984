import Mathlib
import FermiQuiz.Proofs.Generation.Added

/-!
# Generating in two runs

A generation that finds all it wants can be continued: a second one on its questions and on what is
left of the stream ends where a single one would that wants as many as both. What a run goes by is
the keys of the questions so far, and these are read off the questions.
-/

namespace FermiQuiz

open Number (Elementary)
open Chance

def Question.stamped (stamp : String) (q : Question) : Question := { q with generated := stamp }

theorem Question.key_stamped (stamp : String) (q : Question) : (q.stamped stamp).key = q.key := rfl

theorem map_stamped_map_stamped (stamp stamp' : String) (qs : List Question) :
    (qs.map (Question.stamped stamp)).map (Question.stamped stamp') =
      qs.map (Question.stamped stamp') := by
  rw [List.map_map]
  rfl

section

variable {σ : Type} [WordSource σ] [Elementary] {facts : List Fact}
  (nonempty : 0 < (poolOf facts).length)

/-! ### The same draws under other stamps -/

section

variable {keys keys' : Std.HashSet QuestionKey} {maxTries count : ℕ} {s s' : σ}

/-- A search goes by the keys that are known and not by how the set of them was made. -/
theorem drawNew_restamp (same : ∀ key, keys.contains key = keys'.contains key)
    (stamp stamp' : String) (tries : ℕ) (s : σ) :
    drawNew (poolOf facts) nonempty stamp' keys' tries s =
      ((drawNew (poolOf facts) nonempty stamp keys tries s).1.map
          (Option.map (Question.stamped stamp')),
        (drawNew (poolOf facts) nonempty stamp keys tries s).2) := by
  induction tries generalizing s with
  | zero => rfl
  | succ tries ih =>
    obtain ⟨a, b, s₁, drawn, paired⟩ := drawPair_spec nonempty s
    rw [drawNew_succ nonempty stamp keys tries drawn paired,
      drawNew_succ nonempty stamp' keys' tries drawn paired, ← same]
    by_cases seen : keys.contains (ratioKey a b) = true
    · rw [if_pos seen, if_pos seen]
      exact ih s₁
    · rw [if_neg seen, if_neg seen]
      rfl

theorem drawSeveral_restamp {stamp : String} {qs : List Question}
    (same : ∀ key, keys.contains key = keys'.contains key)
    (run : drawSeveral (poolOf facts) nonempty stamp maxTries count keys s = (.ok qs, s'))
    (stamp' : String) :
    drawSeveral (poolOf facts) nonempty stamp' maxTries count keys' s =
      (.ok (qs.map (Question.stamped stamp')), s') := by
  induction count generalizing keys keys' s qs with
  | zero =>
    cases run
    rfl
  | succ count ih =>
    rw [drawSeveral] at run ⊢
    rw [drawNew_restamp nonempty same stamp stamp']
    rcases drawNew_spec nonempty stamp keys maxTries s with
      ⟨s₁, ended⟩ | ⟨a, b, s₁, found, -, -⟩
    · rw [ended] at run ⊢
      cases run
      rfl
    · rw [found] at run ⊢
      have key : (quotientQuestion stamp a b).key = ratioKey a b := key_ratioQuestion ..
      obtain ⟨rest, s₂, more, -⟩ := drawSeveral_spec nonempty stamp maxTries count
        (keys.insert (ratioKey a b)) s₁
      simp only [key, more] at run
      cases run
      -- The new key is added on both sides, so the sets go on knowing the same keys.
      have still : ∀ k, (keys.insert (ratioKey a b)).contains k =
          (keys'.insert (ratioKey a b)).contains k := by
        intro k
        rw [Std.HashSet.contains_insert, Std.HashSet.contains_insert, same]
      have again := ih still more
      simp only [Except.map, Option.map_some, Question.key_stamped, key, again]
      rfl

/-! ### Runs one after the other -/

/-- A run that finds all it wants leaves its stream and its keys to a run for more. -/
theorem drawSeveral_add {stamp : String} {more : ℕ} {qs qs' : List Question} {s'' : σ}
    (first : drawSeveral (poolOf facts) nonempty stamp maxTries count keys s = (.ok qs, s'))
    (full : qs.length = count)
    (second : drawSeveral (poolOf facts) nonempty stamp maxTries more
      (keys.insertMany (qs.map Question.key)) s' = (.ok qs', s'')) :
    drawSeveral (poolOf facts) nonempty stamp maxTries (count + more) keys s =
      (.ok (qs ++ qs'), s'') := by
  induction count generalizing keys s qs with
  | zero =>
    cases first
    rwa [List.map_nil, Std.HashSet.insertMany_nil, ← Nat.zero_add more] at second
  | succ count ih =>
    rw [Nat.add_right_comm, drawSeveral]
    rw [drawSeveral] at first
    rcases drawNew_spec nonempty stamp keys maxTries s with
      ⟨s₁, ended⟩ | ⟨a, b, s₁, found, -, -⟩
    · -- A run that gives up finds fewer than it wants.
      rw [ended] at first
      cases first
      simp at full
    · rw [found] at first ⊢
      have key : (quotientQuestion stamp a b).key = ratioKey a b := key_ratioQuestion ..
      obtain ⟨rest, s₂, run, -⟩ := drawSeveral_spec nonempty stamp maxTries count
        (keys.insert (ratioKey a b)) s₁
      simp only [key, run] at first
      cases first
      rw [List.map_cons, key, Std.HashSet.insertMany_cons] at second
      rw [List.length_cons, Nat.succ_inj] at full
      simp only [key, ih run full second]
      rfl

end

end

/-! ### Generations one after the other -/

section

variable {σ : Type} [WordSource σ] [Elementary] {facts : List Fact} {existing : List Question}
  {count maxTries : ℕ} {stamp : String} {g : Generation} {s s' : σ}

/-- A generation that adds all the questions it is asked for, and one for more that goes on from its
questions and its stream, end as one generation for as many as both, except for the times they
note. -/
theorem generate_resume (first : generate facts existing ⟨count, maxTries⟩ stamp s = (.ok g, s'))
    (full : g.added.length = count) (more : ℕ) (stamp' stamp'' : String) :
    ∃ g' g'' s'', generate facts g.questions ⟨more, maxTries⟩ stamp' s' = (.ok g', s'') ∧
      generate facts existing ⟨count + more, maxTries⟩ stamp'' s = (.ok g'', s'') ∧
      g'.questions.map (Question.stamped "") = g''.questions.map (Question.stamped "") ∧
      g.added.length + g'.added.length = g''.added.length := by
  obtain ⟨nonempty, kept, run⟩ := generate_eq_ok_iff.mp first
  dsimp only at run
  obtain ⟨qs, s'', second, -⟩ := drawSeveral_spec nonempty stamp maxTries more
    ((keysOf existing).insertMany (g.added.map Question.key)) s'
  -- The keys that the first run ends with are those that its questions are read to have.
  have known : ∀ key, ((keysOf existing).insertMany (g.added.map Question.key)).contains key =
      (keysOf g.questions).contains key := by
    intro key
    rw [Std.HashSet.contains_insertMany_list, contains_keysOf, contains_keysOf,
      Generation.questions, kept, List.map_append, Bool.eq_iff_iff, Bool.or_eq_true,
      List.contains_iff_mem, List.contains_iff_mem, List.contains_iff_mem, List.mem_append]
  have resumed := drawSeveral_restamp nonempty known second stamp'
  have whole := drawSeveral_restamp nonempty (fun _ => rfl)
    (drawSeveral_add nonempty run full second) stamp''
  refine ⟨⟨g.questions, qs.map (Question.stamped stamp')⟩,
    ⟨existing, (g.added ++ qs).map (Question.stamped stamp'')⟩, s'',
    generate_eq_ok_iff.mpr ⟨nonempty, rfl, resumed⟩,
    generate_eq_ok_iff.mpr ⟨nonempty, rfl, whole⟩, ?_, ?_⟩
  · simp only [Generation.questions, kept, List.map_append, map_stamped_map_stamped,
      List.append_assoc]
  · simp only [List.length_map, List.length_append]

end

/-- The ratio of two lengths is asked for, and then the two orders of them are tried again. -/
theorem generate_resume_after_one :
    ∃ (_ : Elementary) (g g' g'' : Generation) (s' s'' : Stream),
      generate [towerFact, ballFact] [] ⟨1, 20⟩ "now" (Stream.ofSeed 3) = (.ok g, s') ∧
      g.added.length = 1 ∧
      generate [towerFact, ballFact] g.questions ⟨2, 20⟩ "then" s' = (.ok g', s'') ∧
      generate [towerFact, ballFact] [] ⟨3, 20⟩ "later" (Stream.ofSeed 3) = (.ok g'', s'') ∧
      g'.questions.map (Question.stamped "") = g''.questions.map (Question.stamped "") ∧
      g.added.length + g'.added.length = g''.added.length := by
  let elementary : Elementary := ⟨Number.steppedLog 10, Float.exp2⟩
  have nonempty : 0 < (poolOf [towerFact, ballFact]).length := by decide +kernel
  obtain ⟨added, s', first⟩ := exists_generate nonempty [] ⟨1, 20⟩ "now" (Stream.ofSeed 3)
  have one := length_added_of_one_wanted first (by simp)
  obtain ⟨g', g'', s'', second, whole, same, length⟩ := generate_resume first one 2 "then" "later"
  exact ⟨elementary, _, g', g'', s', s'', first, one, second, whole, same, length⟩

end FermiQuiz
