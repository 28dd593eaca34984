import Mathlib
import FermiQuiz.Text.Blank

/-!
# Trimmed texts

Trimming takes the blanks off both ends of a text and nothing else, so what is between them and has
no blank at either end is left.
-/

namespace FermiQuiz.Text

theorem rdropWhile_append {α : Type} (p : α → Bool) (xs ys : List α) :
    (xs ++ ys).rdropWhile p =
      if (ys.rdropWhile p).isEmpty then xs.rdropWhile p else xs ++ ys.rdropWhile p := by
  unfold List.rdropWhile
  rw [List.reverse_append, List.dropWhile_append, List.isEmpty_reverse]
  split
  · rfl
  · rw [List.reverse_append, List.reverse_reverse]

theorem rdropWhile_append_of_mem {α : Type} {p : α → Bool} (xs : List α) {ys : List α} {y : α}
    (member : y ∈ ys) (kept : p y = false) :
    (xs ++ ys).rdropWhile p = xs ++ ys.rdropWhile p := by
  have some_left : ys.rdropWhile p ≠ [] := by
    intro none
    have dropped := List.rdropWhile_eq_nil_iff.mp none y member
    rw [kept] at dropped
    cases dropped
  rw [rdropWhile_append, if_neg (by simpa using some_left)]

theorem trimChars_eq (cs : List Char) :
    trimChars cs = (cs.dropWhile isBlank).rdropWhile isBlank := rfl

structure Trimmed (cs : List Char) : Prop where
  front : cs.dropWhile isBlank = cs
  back : cs.rdropWhile isBlank = cs

theorem Trimmed.trimChars_eq {cs : List Char} (h : Trimmed cs) : trimChars cs = cs := by
  rw [Text.trimChars_eq, h.front, h.back]

theorem dropWhile_eq_of_prefix {p : Char → Bool} {cs ds : List Char} (front : cs <+: ds)
    (h : ds.dropWhile p = ds) : cs.dropWhile p = cs := by
  cases cs with
  | nil => rfl
  | cons c rest =>
    obtain ⟨more, rfl⟩ := front
    refine List.dropWhile_cons_of_neg fun dropped => ?_
    rw [List.cons_append, List.dropWhile_cons_of_pos dropped] at h
    have shorter := (List.dropWhile_suffix (l := rest ++ more) p).length_le
    rw [h, List.length_cons] at shorter
    omega

theorem trimmed_trimChars (cs : List Char) : Trimmed (trimChars cs) where
  front := dropWhile_eq_of_prefix (List.rdropWhile_prefix _ _) (List.dropWhile_idempotent _ _)
  back := List.rdropWhile_idempotent _ _

theorem exists_append_trimChars (cs : List Char) :
    ∃ opening closing, cs = opening ++ trimChars cs ++ closing ∧
      (∀ c ∈ opening, isBlank c = true) ∧ ∀ c ∈ closing, isBlank c = true := by
  refine ⟨cs.takeWhile isBlank, (cs.dropWhile isBlank).rtakeWhile isBlank, ?_,
    fun c member => List.mem_takeWhile_imp member, fun c member => List.mem_rtakeWhile_imp member⟩
  rw [trimChars_eq, List.append_assoc, List.rdropWhile_append_rtakeWhile,
    List.takeWhile_append_dropWhile]

theorem trimChars_eq_nil_iff {cs : List Char} : trimChars cs = [] ↔ ∀ c ∈ cs, isBlank c = true := by
  constructor
  · intro empty c member
    obtain ⟨opening, closing, whole, front, back⟩ := exists_append_trimChars cs
    rw [whole, empty, List.append_nil] at member
    exact (List.mem_append.mp member).elim (front c) (back c)
  · intro blank
    rw [trimChars_eq, List.dropWhile_eq_nil_iff.mpr blank, List.rdropWhile_nil]

theorem isAllBlank_iff {s : String} : isAllBlank s = true ↔ trim s = "" := by
  rw [isAllBlank, List.all_eq_true, ← trimChars_eq_nil_iff, trim, String.ofList_eq_empty_iff]

theorem trimChars_append {opening cs : List Char} (blank : ∀ c ∈ opening, isBlank c = true) :
    trimChars (opening ++ cs) = trimChars cs := by
  rw [trimChars_eq, trimChars_eq, List.dropWhile_append_of_pos blank]

end FermiQuiz.Text
