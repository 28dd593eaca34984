import Mathlib
import FermiQuiz.Question
import FermiQuiz.Proofs.Text.Trimmed

/-!
# Clean prompts

Cleaning takes one mark off a prompt, and then the blanks around it. What comes to light may carry a
mark again; exactly then cleaning once more changes it.
-/

namespace FermiQuiz.Question

open Text (isBlank trimChars trimmed_trimChars exists_append_trimChars)

def mark : List Char := ['Q', ':', ' ']

def IsMarked (prompt : String) : Prop := mark <+: prompt.toList

instance (prompt : String) : Decidable (IsMarked prompt) :=
  inferInstanceAs (Decidable (mark <+: prompt.toList))

/-- A mark stands behind another one or behind blanks, with blanks between them at most, and before
something that is not blank. -/
def HidesMark (prompt : String) : Prop :=
  ∃ opening blanks rest, prompt.toList = opening ++ (blanks ++ (mark ++ rest)) ∧
    (opening = mark ∨ opening = [] ∧ blanks ≠ []) ∧ (∀ c ∈ blanks, isBlank c = true) ∧
    ∃ c ∈ rest, isBlank c = false

theorem toList_cleanPrompt_of_marked {prompt : String} {rest : List Char}
    (h : prompt.toList = mark ++ rest) : (cleanPrompt prompt).toList = trimChars rest := by
  have cons : prompt.toList = 'Q' :: ':' :: ' ' :: rest := h
  unfold cleanPrompt
  rw [cons]
  exact String.toList_ofList

theorem toList_cleanPrompt_of_not_marked {prompt : String} (h : ¬ IsMarked prompt) :
    (cleanPrompt prompt).toList = trimChars prompt.toList := by
  unfold cleanPrompt
  split
  · next rest marked =>
    refine absurd ?_ h
    rw [IsMarked, marked]
    exact List.prefix_append mark rest
  · exact String.toList_ofList

/-- A mark ends in a blank, so that trimming leaves it only before something that is not blank. -/
theorem exists_not_blank_of_trimmed {rest : List Char} (h : Text.Trimmed (mark ++ rest)) :
    ∃ c ∈ rest, isBlank c = false := by
  by_contra! blank
  have all : ∀ c ∈ [' '] ++ rest, isBlank c = true := by
    intro c member
    rcases List.mem_append.mp member with first | later
    · rw [List.mem_singleton.mp first]
      decide
    · exact Bool.eq_true_of_not_eq_false (blank c later)
  have gone : ([' '] ++ rest).rdropWhile isBlank = [] := List.rdropWhile_eq_nil_iff.mpr all
  have split : mark ++ rest = ['Q', ':'] ++ ([' '] ++ rest) := rfl
  have back := h.back
  rw [split, Text.rdropWhile_append, gone, List.isEmpty_nil, if_pos rfl] at back
  have lengths := congrArg List.length back
  have shorter := (List.rdropWhile_prefix isBlank ['Q', ':']).length_le
  simp only [List.length_append, List.length_cons, List.length_nil] at lengths shorter
  omega

theorem trimChars_blanks_mark {blanks rest : List Char} (blank : ∀ c ∈ blanks, isBlank c = true)
    (more : ∃ c ∈ rest, isBlank c = false) :
    trimChars (blanks ++ (mark ++ rest)) = mark ++ rest.rdropWhile isBlank := by
  obtain ⟨c, member, other⟩ := more
  have front : (mark ++ rest).dropWhile isBlank = mark ++ rest :=
    List.dropWhile_cons_of_neg (by decide)
  rw [Text.trimChars_append blank, Text.trimChars_eq, front,
    Text.rdropWhile_append_of_mem mark member other]

/-- A clean prompt is marked exactly if the prompt hid a mark. -/
theorem isMarked_cleanPrompt_iff {prompt : String} :
    IsMarked (cleanPrompt prompt) ↔ HidesMark prompt := by
  constructor
  · intro marked
    -- Whatever mark was taken off, the other one is what trimming found first.
    have found : ∀ {cs}, (cleanPrompt prompt).toList = trimChars cs →
        ∃ blanks rest, cs = blanks ++ (mark ++ rest) ∧ (∀ c ∈ blanks, isBlank c = true) ∧
          ∃ c ∈ rest, isBlank c = false := by
      intro cs same
      obtain ⟨rest, left⟩ := marked
      obtain ⟨opening, closing, parts, blank, -⟩ := exists_append_trimChars cs
      rw [← same, ← left] at parts
      have trimmed := trimmed_trimChars cs
      rw [← same, ← left] at trimmed
      obtain ⟨c, member, other⟩ := exists_not_blank_of_trimmed trimmed
      refine ⟨opening, rest ++ closing, ?_, blank, c, List.mem_append_left _ member, other⟩
      rw [parts]
      simp only [List.append_assoc]
    by_cases first : IsMarked prompt
    · obtain ⟨cs, whole⟩ := first
      obtain ⟨blanks, rest, rfl, blank, more⟩ := found (toList_cleanPrompt_of_marked whole.symm)
      exact ⟨mark, blanks, rest, whole.symm, Or.inl rfl, blank, more⟩
    · obtain ⟨blanks, rest, whole, blank, more⟩ := found (toList_cleanPrompt_of_not_marked first)
      refine ⟨[], blanks, rest, whole, Or.inr ⟨rfl, ?_⟩, blank, more⟩
      rintro rfl
      exact first ⟨rest, whole.symm⟩
  · rintro ⟨opening, blanks, rest, whole, rfl | ⟨rfl, some_blank⟩, blank, more⟩
    · rw [IsMarked, toList_cleanPrompt_of_marked whole, trimChars_blanks_mark blank more]
      exact List.prefix_append mark _
    · have unmarked : ¬ IsMarked prompt := by
        obtain ⟨b, bs, rfl⟩ := List.exists_cons_of_ne_nil some_blank
        rintro ⟨other, same⟩
        rw [whole] at same
        have first : 'Q' = b := (List.cons.inj same).1
        have blank_first := blank b List.mem_cons_self
        rw [← first] at blank_first
        exact absurd blank_first (by decide)
      rw [IsMarked, toList_cleanPrompt_of_not_marked unmarked, whole, List.nil_append,
        trimChars_blanks_mark blank more]
      exact List.prefix_append mark _

theorem cleanPrompt_cleanPrompt_eq_iff {prompt : String} :
    cleanPrompt (cleanPrompt prompt) = cleanPrompt prompt ↔ ¬ IsMarked (cleanPrompt prompt) := by
  have trimmed : Text.Trimmed (cleanPrompt prompt).toList := by
    by_cases first : IsMarked prompt
    · obtain ⟨cs, whole⟩ := first
      rw [toList_cleanPrompt_of_marked whole.symm]
      exact trimmed_trimChars cs
    · rw [toList_cleanPrompt_of_not_marked first]
      exact trimmed_trimChars _
  generalize cleanPrompt prompt = clean at trimmed
  constructor
  · rintro same ⟨cs, whole⟩
    have again := toList_cleanPrompt_of_marked whole.symm
    obtain ⟨opening, closing, parts, -⟩ := exists_append_trimChars cs
    have lengths := congrArg List.length parts
    rw [← again, same, ← whole] at lengths
    simp only [mark, List.length_append, List.length_cons, List.length_nil] at lengths
    omega
  · intro unmarked
    have again := toList_cleanPrompt_of_not_marked unmarked
    rw [trimmed.trimChars_eq] at again
    exact String.toList_inj.mp again

end FermiQuiz.Question
