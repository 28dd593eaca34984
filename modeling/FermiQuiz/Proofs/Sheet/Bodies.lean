import Mathlib
import FermiQuiz.Proofs.Sheet.Numbers

/-!
# Bodies of entries

What comes after the number of an entry is a unit without blanks and a note in parentheses. A text
of one word is taken for a unit even if it stands in parentheses, and without a parenthesis there is
no note. An entry is cut at the colons of its first line.
-/

namespace FermiQuiz.Sheet

open Text (isBlank trimStart)
open Json (span_append)

/-! ### Units and notes -/

namespace Parts

/-- What is written before the text of a note. -/
def noteStart : Option (List Char) → List Char
  | none => []
  | some _ => [' ', '(']

/-- The text of a note and what closes it. -/
def noteEnd : Option (List Char) → List Char
  | none => []
  | some note => note ++ [')']

end Parts

section

variable {unit note : List Char}

theorem trimStart_of_head {cs : List Char} (front : ∀ c ∈ cs.head?, isBlank c = false) :
    trimStart cs = cs := by
  cases cs with
  | nil => rfl
  | cons c cs => exact List.dropWhile_cons_of_neg (by simp [front c rfl])

theorem enclosed?_of_free {cs : List Char} (open_free : '(' ∉ cs) : enclosed? cs = none := by
  unfold enclosed?
  split
  · exact absurd List.mem_cons_self open_free
  · rfl

theorem enclosed?_note (line : '\n' ∉ note) : enclosed? ('(' :: (note ++ [')'])) = some note := by
  have single : (note ++ [')']).contains '\n' = false := by simpa using line
  rw [enclosed?, single, List.getLast?_concat, List.dropLast_concat]
  rfl

theorem trimStart_blank (cs : List Char) : trimStart (' ' :: cs) = trimStart cs :=
  List.dropWhile_cons_of_pos rfl

/-- What a text without blanks and what follows it are taken for. -/
theorem unitAndNote?_eq {cs token after : List Char} (start : trimStart cs = token ++ after)
    (plain : ∀ c ∈ token, isBlank c = false) (stops : ∀ c ∈ after.head?, isBlank c = true) :
    unitAndNote? cs = if (trimStart after).isEmpty then some (token, none) else
      ((enclosed? (trimStart after)).map fun note => (token, some note)).or
        ((beforeParenthesis? token).bind fun parts =>
          (enclosed? (parts.2 ++ after)).map fun note => (parts.1, some note)) := by
  have plain' : ∀ c ∈ token, (!isBlank c) = true := fun c member => by simp [plain c member]
  have stops' : ∀ c ∈ after.head?, (!isBlank c) = false := fun c first => by simp [stops c first]
  obtain ⟨taken, dropped⟩ := span_append plain' stops'
  unfold unitAndNote?
  rw [start]
  dsimp only
  rw [taken, dropped]
  cases trimStart after with
  | nil => rfl
  | cons c rest =>
    dsimp only
    cases enclosed? (c :: rest) with
    | some note => rfl
    | none => cases beforeParenthesis? token <;> rfl

/-- A unit is taken with what is written of a note after it. -/
theorem unitAndNote?_of_unit {note : Option (List Char)} (some_unit : unit ≠ [])
    (plain : ∀ c ∈ unit, isBlank c = false) (line : ∀ t ∈ note, '\n' ∉ t) :
    unitAndNote? (' ' :: unit ++ (Parts.noteStart note ++ Parts.noteEnd note)) =
      some (unit, note) := by
  have start : trimStart (' ' :: unit ++ (Parts.noteStart note ++ Parts.noteEnd note)) =
      unit ++ (Parts.noteStart note ++ Parts.noteEnd note) := by
    obtain ⟨c, cs, rfl⟩ := List.exists_cons_of_ne_nil some_unit
    refine (trimStart_blank _).trans (trimStart_of_head ?_)
    rintro d ⟨⟩
    exact plain c List.mem_cons_self
  cases note with
  | none =>
    rw [unitAndNote?_eq start plain (by rintro c ⟨⟩)]
    rfl
  | some t =>
    have opened : trimStart (Parts.noteStart (some t) ++ Parts.noteEnd (some t)) =
        '(' :: (t ++ [')']) := rfl
    rw [unitAndNote?_eq start plain (by rintro c ⟨⟩; rfl), opened, enclosed?_note (line t rfl)]
    rfl

theorem beforeParenthesis?_append (unit : List Char) (open_free : '(' ∉ note) :
    beforeParenthesis? (unit ++ '(' :: note) = some (unit, '(' :: note) := by
  have other : ∀ c ∈ note.reverse, (c != '(') = true := by
    intro c member
    rw [bne_iff_ne]
    rintro rfl
    exact open_free (List.mem_reverse.mp member)
  have stops : ∀ c ∈ ('(' :: unit.reverse).head?, (c != '(') = false := by
    rintro c ⟨⟩
    rfl
  obtain ⟨taken, dropped⟩ := span_append other stops
  unfold beforeParenthesis?
  rw [List.reverse_append, List.reverse_cons, List.append_assoc]
  dsimp only [List.singleton_append]
  rw [dropped, taken, List.reverse_reverse]
  dsimp only
  rw [List.reverse_reverse]

theorem exists_first_blank {cs : List Char} (blank : cs.any isBlank = true) :
    ∃ word c rest, cs = word ++ c :: rest ∧ (∀ d ∈ word, isBlank d = false) ∧
      isBlank c = true := by
  induction cs with
  | nil => cases blank
  | cons c cs ih =>
    by_cases first : isBlank c = true
    · exact ⟨[], c, cs, rfl, List.forall_mem_nil _, first⟩
    · rw [List.any_cons, Bool.or_eq_true] at blank
      obtain ⟨word, d, rest, rfl, plain, is_blank⟩ := ih (blank.resolve_left first)
      exact ⟨c :: word, d, rest, rfl,
        List.forall_mem_cons.mpr ⟨Bool.eq_false_iff.mpr first, plain⟩, is_blank⟩

/-- Without a unit a note of several words is taken, but one of a single word is the unit. -/
theorem unitAndNote?_of_note (open_free : '(' ∉ note) (line : '\n' ∉ note) :
    unitAndNote? (' ' :: '(' :: (note ++ [')'])) =
      if note.any isBlank then some ([], some note) else some ('(' :: (note ++ [')']), none) := by
  have start : trimStart (' ' :: '(' :: (note ++ [')'])) = '(' :: (note ++ [')']) := rfl
  split
  · next words =>
    -- The first word is taken for the unit, and what follows it is no note.
    obtain ⟨word, c, rest, rfl, plain, blank⟩ := exists_first_blank words
    rw [List.mem_append, not_or] at open_free
    have split : '(' :: (word ++ c :: rest ++ [')']) = '(' :: word ++ c :: (rest ++ [')']) := by
      simp
    have plain' : ∀ d ∈ '(' :: word, isBlank d = false := List.forall_mem_cons.mpr ⟨rfl, plain⟩
    have after_free : '(' ∉ c :: (rest ++ [')']) := by
      rw [← List.cons_append, List.mem_append, not_or]
      exact ⟨open_free.2, by decide⟩
    have some_after : trimStart (c :: (rest ++ [')'])) ≠ [] := by
      intro none
      have closing := List.dropWhile_eq_nil_iff.mp none ')' (by simp)
      cases closing
    have no_note : enclosed? (trimStart (c :: (rest ++ [')']))) = none :=
      enclosed?_of_free fun member => after_free ((List.dropWhile_suffix _).subset member)
    have more : (trimStart (c :: (rest ++ [')']))).isEmpty = false :=
      List.isEmpty_eq_false_iff.mpr some_after
    rw [unitAndNote?_eq (start.trans split) plain' (by rintro d ⟨⟩; exact blank), more, no_note,
      ← List.nil_append ('(' :: word), beforeParenthesis?_append [] open_free.1]
    simp only [Bool.false_eq_true, if_false, Option.map_none, Option.none_or, Option.bind_some]
    rw [← split, enclosed?_note line]
    rfl
  · next words =>
    have plain : ∀ c ∈ '(' :: (note ++ [')']), isBlank c = false := by
      simp only [List.any_eq_true, not_exists, not_and, Bool.not_eq_true] at words
      refine List.forall_mem_cons.mpr ⟨rfl, fun c member => ?_⟩
      obtain member | member := List.mem_append.mp member
      · exact words c member
      · rw [List.mem_singleton.mp member]
        rfl
    rw [unitAndNote?_eq (start.trans (List.append_nil _).symm) plain (by rintro c ⟨⟩)]
    rfl

theorem beforeParenthesis?_of_free {cs : List Char} (open_free : '(' ∉ cs) :
    beforeParenthesis? cs = none := by
  have none_left : cs.reverse.dropWhile (· != '(') = [] := by
    refine List.dropWhile_eq_nil_iff.mpr fun c member => ?_
    rw [bne_iff_ne]
    rintro rfl
    exact open_free (List.mem_reverse.mp member)
  unfold beforeParenthesis?
  dsimp only
  rw [none_left]

theorem takeNumbers?_append {cs n rest : List Char} (taken : takeNumbers? cs = some (n, rest)) :
    n ++ rest = cs := by
  unfold takeNumbers? at taken
  split at taken
  · cases taken
  · next number after found =>
    cases taken
    rw [List.append_assoc, takeMore_append, (takeNumber?_append found).1]

/-- Whether a text is a body does not depend on what stands before it. -/
theorem body?_eq_none_iff {cs : List Char} (specifier : Option (List Char)) :
    body? specifier cs = none ↔ body? none cs = none := by
  unfold body?
  cases takeNumbers? (trimStart cs) with
  | none => rfl
  | some taken => rw [Option.map_eq_none_iff, Option.map_eq_none_iff]

end

/-! ### Colons -/

theorem colonSplits_append {cs : List Char} (plain : ∀ c ∈ cs, c ≠ ':' ∧ c ≠ '\n')
    (before rest : List Char) :
    colonSplits before (cs ++ rest) = colonSplits (cs.reverse ++ before) rest := by
  induction cs generalizing before with
  | nil => rfl
  | cons c cs ih =>
    obtain ⟨first, plain⟩ := List.forall_mem_cons.mp plain
    rw [List.cons_append, colonSplits, if_neg first.2]
    dsimp only
    rw [if_neg first.1, ih plain, List.reverse_cons, List.append_assoc]
    rfl

theorem mem_colonSplits_iff {before cs specifier rest : List Char} :
    (specifier, rest) ∈ colonSplits before cs ↔ ∃ between, '\n' ∉ between ∧
      cs = between ++ ':' :: rest ∧ specifier = before.reverse ++ between := by
  induction cs generalizing before with
  | nil => simp [colonSplits]
  | cons c cs ih =>
    have here : (∃ between, '\n' ∉ between ∧ c :: cs = between ++ ':' :: rest ∧
        specifier = before.reverse ++ between) ↔
          c ≠ '\n' ∧ ((c = ':' ∧ cs = rest ∧ specifier = before.reverse) ∨
            (specifier, rest) ∈ colonSplits (c :: before) cs) := by
      rw [ih]
      constructor
      · rintro ⟨between, line, split, rfl⟩
        cases between with
        | nil =>
          cases split
          exact ⟨by decide, Or.inl ⟨rfl, rfl, List.append_nil _⟩⟩
        | cons d between =>
          cases split
          rw [List.mem_cons, not_or] at line
          exact ⟨Ne.symm line.1, Or.inr ⟨between, line.2, rfl, by simp⟩⟩
      · rintro ⟨line, ⟨rfl, rfl, rfl⟩ | ⟨between, line', rfl, rfl⟩⟩
        · exact ⟨[], List.not_mem_nil, rfl, (List.append_nil _).symm⟩
        · exact ⟨c :: between, by simp [line', Ne.symm line], rfl, by simp⟩
    rw [here, colonSplits]
    split
    · next newline => simp [newline]
    · next other =>
      dsimp only
      split
      · next colon => simp [colon, or_comm, and_comm, eq_comm]
      · next no_colon => simp [other, no_colon]

theorem exists_mem_colonSplits_iff {cs rest : List Char} (line : '\n' ∉ cs)
    (before : List Char) : (∃ specifier, (specifier, rest) ∈ colonSplits before cs) ↔
      ∃ between, cs = between ++ ':' :: rest := by
  simp only [mem_colonSplits_iff]
  constructor
  · rintro ⟨_, between, -, split, -⟩
    exact ⟨between, split⟩
  · rintro ⟨between, rfl⟩
    exact ⟨_, between, fun member => line (List.mem_append_left _ member), rfl, rfl⟩

end FermiQuiz.Sheet
