import Mathlib

/-!
# Numbered items

What each item of a list gives, with the number of the item: what is in such a list, and that it
keeps the order of the items.
-/

namespace FermiQuiz

/-- What the items of a list give, with the number of the item. -/
def numbered {α β : Type} (f : ℕ → α → List β) : ℕ → List α → List (ℕ × β)
  | _, [] => []
  | i, a :: l => (f i a).map (i, ·) ++ numbered f (i + 1) l

section

variable {α β : Type} {f : ℕ → α → List β} {l : List α} {b : β}

theorem mem_numbered_iff {start i : ℕ} : (i, b) ∈ numbered f start l ↔
    ∃ k a, i = start + k ∧ l[k]? = some a ∧ b ∈ f i a := by
  induction l generalizing start with
  | nil => simp [numbered]
  | cons a l ih =>
    rw [numbered, List.mem_append, ih]
    constructor
    · rintro (member | ⟨k, c, rfl, at_place, member⟩)
      · obtain ⟨b', member, same⟩ := List.mem_map.mp member
        cases same
        exact ⟨0, a, rfl, rfl, member⟩
      · exact ⟨k + 1, c, by omega, at_place, member⟩
    · rintro ⟨k, c, rfl, at_place, member⟩
      cases k with
      | zero =>
        cases at_place
        exact Or.inl (List.mem_map.mpr ⟨b, member, rfl⟩)
      | succ k => exact Or.inr ⟨k, c, by omega, at_place, member⟩

theorem pairwise_numbered {r : β → β → Prop} (sorted : ∀ i a, (f i a).Pairwise r) (start : ℕ) :
    (numbered f start l).Pairwise fun x y => x.1 < y.1 ∨ x.1 = y.1 ∧ r x.2 y.2 := by
  induction l generalizing start with
  | nil => exact List.Pairwise.nil
  | cons a l ih =>
    refine List.pairwise_append.mpr ⟨?_, ih _, ?_⟩
    · rw [List.pairwise_map]
      exact (sorted start a).imp fun before => Or.inr ⟨rfl, before⟩
    · rintro x member ⟨j, b⟩ member'
      obtain ⟨_, _, rfl⟩ := List.mem_map.mp member
      obtain ⟨k, _, rfl, -⟩ := mem_numbered_iff.mp member'
      exact Or.inl (by dsimp only; omega)

theorem map_snd_numbered {g : α → List β} (start : ℕ) :
    (numbered (fun _ => g) start l).map Prod.snd = l.flatMap g := by
  induction l generalizing start with
  | nil => rfl
  | cons a l ih =>
    rw [numbered, List.map_append, ih, List.map_map, List.flatMap_cons]
    congr 1
    exact List.map_id _

end

end FermiQuiz
