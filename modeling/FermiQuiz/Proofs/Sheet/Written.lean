import Mathlib
import FermiQuiz.Proofs.Sheet.Choice
import FermiQuiz.Proofs.Text.Trimmed

/-!
# Entries as they are written

An entry is written as `specifier: number unit (note)`, of which only the number has to be there.
It is read as its parts, unless a note of one word stands where a unit would, or what follows a
colon in the note could be a body.
-/

namespace FermiQuiz.Sheet

open Text (isBlank trimStart trimChars Trimmed)
open Json (isLiteral)

/-! ### Parts as they are written -/

namespace Parts

def unitText (unit : List Char) : List Char := if unit = [] then [] else ' ' :: unit

def beforeNote (p : Parts) : List Char := p.number ++ unitText p.unit ++ noteStart p.note

def bodyText (p : Parts) : List Char := p.beforeNote ++ noteEnd p.note

/-- The text of an entry with these parts. Without a unit or with no note nothing is written. -/
def text (p : Parts) : List Char :=
  match p.specifier with
  | none => p.bodyText
  | some specifier => specifier ++ ':' :: ' ' :: p.bodyText

/-- The parts can be told apart: no colon before the note, no blank in the unit, and no parenthesis
in the note. -/
structure WellFormed (p : Parts) : Prop where
  specifier : ∀ s ∈ p.specifier, Trimmed s ∧ ∀ c ∈ s, c ≠ ':' ∧ c ≠ '\n'
  number : isLiteral p.number = true
  unit : ∀ c ∈ p.unit, isBlank c = false ∧ c ≠ ':'
  note : ∀ t ∈ p.note, Trimmed t ∧ ∀ c ∈ t, c ≠ '(' ∧ c ≠ ')' ∧ c ≠ '\n'

/-- The entry with these parts, in which the specifier is lowercased. -/
def entry (p : Parts) (value : Float) : Entry where
  specifier := String.ofList (Text.lowerChars (p.specifier.getD []))
  quantity := ⟨value, String.ofList p.unit⟩
  note := String.ofList (p.note.getD [])

/-- A note has a unit before it or a blank in it. -/
def NoteApart (p : Parts) : Prop :=
  p.unit = [] → ∀ t ∈ p.note, t.any isBlank = true

/-- No body comes after a colon in the note. -/
def NoBodyInNote (p : Parts) : Prop :=
  ∀ t ∈ p.note, ∀ before after, t = before ++ ':' :: after → body? none (after ++ [')']) = none

theorem noBodyInNote_of_no_colon {p : Parts} (no_colon : ∀ t ∈ p.note, ':' ∉ t) :
    p.NoBodyInNote := by
  rintro t given before after rfl
  exact absurd (by simp) (no_colon _ given)

namespace WellFormed

variable {p : Parts} (h : p.WellFormed)

include h

theorem number_spec : p.number ≠ [] ∧ ∀ c ∈ p.number, isBlank c = false ∧ c ≠ ':' := by
  have number := (isLiteral_iff.mp h.number).of_forall fun c _ => isScriptDigit_of_isDigit
  obtain ⟨c, tail, begins, -⟩ := beginsNumber_of_isNumber number
  refine ⟨?_, fun d member => ?_⟩
  · obtain begins | begins := begins
    · exact begins ▸ List.cons_ne_nil c tail
    · exact begins ▸ List.cons_ne_nil '-' (c :: tail)
  · have sign := isNumberSign_of_isNumber number d member
    exact ⟨isBlank_of_isNumberSign sign, (ne_of_isNumberSign sign).2⟩

theorem head_bodyText : ∀ c ∈ p.bodyText.head?, isBlank c = false := by
  obtain ⟨some_number, plain⟩ := h.number_spec
  intro c first
  rw [bodyText, beforeNote, List.append_assoc, List.append_assoc,
    List.head?_append_of_ne_nil _ some_number] at first
  exact (plain c (List.mem_of_head? first)).1

/-! ### Bodies -/

theorem body?_bodyText (specifier : Option (List Char)) : body? specifier p.bodyText =
    (unitAndNote? (unitText p.unit ++ (noteStart p.note ++ noteEnd p.note))).map
      fun (unit, note) => ⟨specifier, p.number, unit, note⟩ := by
  have whole : p.bodyText =
      p.number ++ (unitText p.unit ++ (noteStart p.note ++ noteEnd p.note)) := by
    simp [bodyText, beforeNote]
  have ends : ∀ c ∈ (unitText p.unit ++ (noteStart p.note ++ noteEnd p.note)).head?, c = ' ' := by
    rw [unitText]
    split
    · cases p.note with
      | none => rintro c ⟨⟩
      | some t => rintro c ⟨⟩; rfl
    · rintro c ⟨⟩
      rfl
  have start : trimStart p.bodyText = p.bodyText := trimStart_of_head h.head_bodyText
  rw [body?, start, whole, takeNumbers?_literal h.number ends]

theorem body?_of_noteApart (specifier : Option (List Char)) (apart : p.NoteApart) :
    body? specifier p.bodyText = some { p with specifier := specifier } := by
  rw [h.body?_bodyText]
  obtain ⟨before, number, unit, note⟩ := p
  by_cases some_unit : unit = []
  · subst some_unit
    cases note with
    | none => rfl
    | some t =>
      have chars := (h.note t rfl).2
      have taken := unitAndNote?_of_note (fun member => (chars _ member).1 rfl)
        fun member => (chars _ member).2.2 rfl
      rw [if_pos (apart rfl t rfl)] at taken
      exact congrArg (Option.map _) taken
  · have line : ∀ t ∈ note, '\n' ∉ t := fun t given member => ((h.note t given).2 _ member).2.2 rfl
    have plain : ∀ c ∈ unit, isBlank c = false := fun c member => (h.unit c member).1
    rw [unitText, if_neg some_unit, unitAndNote?_of_unit some_unit plain line]
    rfl

theorem exists_body?_of_not_noteApart (specifier : Option (List Char)) (joined : ¬ p.NoteApart) :
    p.unit = [] ∧ ∃ unit, unit ≠ [] ∧
      body? specifier p.bodyText = some ⟨specifier, p.number, unit, none⟩ := by
  rw [h.body?_bodyText]
  obtain ⟨before, number, unit, note⟩ := p
  unfold NoteApart at joined
  push Not at joined
  obtain ⟨rfl, t, given, word⟩ := joined
  cases given
  have chars := (h.note t rfl).2
  have taken := unitAndNote?_of_note (fun member => (chars _ member).1 rfl)
    fun member => (chars _ member).2.2 rfl
  rw [if_neg word] at taken
  exact ⟨rfl, '(' :: (t ++ [')']), List.cons_ne_nil _ _, congrArg (Option.map _) taken⟩

theorem isSome_body?_bodyText (specifier : Option (List Char)) :
    (body? specifier p.bodyText).isSome = true := by
  by_cases apart : p.NoteApart
  · rw [h.body?_of_noteApart specifier apart]
    rfl
  · obtain ⟨-, unit, -, taken⟩ := h.exists_body?_of_not_noteApart specifier apart
    rw [taken]
    rfl

/-! ### Colons -/

theorem beforeNote_spec : ∀ c ∈ p.beforeNote, c ≠ ':' ∧ c ≠ '\n' := by
  have plain_of_unit (c : Char) (plain : isBlank c = false ∧ c ≠ ':') : c ≠ ':' ∧ c ≠ '\n' := by
    refine ⟨plain.2, ?_⟩
    rintro rfl
    cases plain.1
  intro c member
  simp only [beforeNote, List.mem_append] at member
  obtain (number | unit) | note := member
  · exact plain_of_unit c (h.number_spec.2 c number)
  · rw [unitText] at unit
    split at unit
    · cases unit
    · obtain rfl | unit := List.mem_cons.mp unit
      · decide
      · exact plain_of_unit c (h.unit c unit)
  · cases given : p.note with
    | none =>
      rw [given] at note
      cases note
    | some t =>
      rw [given, noteStart, List.mem_cons, List.mem_singleton] at note
      obtain rfl | rfl := note <;> decide

/-- The right-most colon that a body follows is looked for in the note first. -/
theorem exists_parts?_text : ∃ before, parts? p.text =
    ((colonSplits before (noteEnd p.note)).findSome? fun (s, rest) => body? (some s) rest).or
      (body? p.specifier p.bodyText) := by
  have split (before : List Char) : colonSplits before p.bodyText =
      colonSplits (p.beforeNote.reverse ++ before) (noteEnd p.note) :=
    colonSplits_append h.beforeNote_spec before _
  cases given : p.specifier with
  | none =>
    refine ⟨p.beforeNote.reverse ++ [], ?_⟩
    rw [text, given, parts?, split]
  | some s =>
    have split' : colonSplits [] (s ++ ':' :: ' ' :: p.bodyText) =
        colonSplits (p.beforeNote.reverse ++ (' ' :: ':' :: s.reverse)) (noteEnd p.note) ++
          [(s, ' ' :: p.bodyText)] := by
      rw [colonSplits_append (h.specifier s given).2, ← split]
      simp [colonSplits]
    have body : body? (some s) (' ' :: p.bodyText) = body? (some s) p.bodyText := by
      rw [body?, trimStart_blank, body?]
    refine ⟨p.beforeNote.reverse ++ (' ' :: ':' :: s.reverse), ?_⟩
    obtain ⟨q, taken⟩ := Option.isSome_iff_exists.mp (h.isSome_body?_bodyText (some s))
    rw [text, given, parts?, split', List.findSome?_append, List.findSome?_singleton]
    dsimp only
    rw [body, taken, Option.or_assoc, Option.some_or]

theorem line_noteEnd : '\n' ∉ noteEnd p.note := by
  intro member
  cases given : p.note with
  | none =>
    rw [given] at member
    cases member
  | some t =>
    rw [given, noteEnd, List.mem_append] at member
    obtain inner | closing := member
    · exact ((h.note t given).2 _ inner).2.2 rfl
    · cases List.mem_singleton.mp closing

theorem exists_mem_colonSplits_noteEnd_iff (before rest : List Char) :
    (∃ s, (s, rest) ∈ colonSplits before (noteEnd p.note)) ↔
      ∃ t ∈ p.note, ∃ between after, t = between ++ ':' :: after ∧ rest = after ++ [')'] := by
  rw [exists_mem_colonSplits_iff h.line_noteEnd]
  cases p.note with
  | none => simp [noteEnd]
  | some t =>
    simp only [noteEnd, Option.mem_some_iff, exists_eq_left']
    refine exists_congr fun between => ?_
    constructor
    · intro split
      -- The text ends with the parenthesis, which is no colon.
      obtain rfl | ⟨after, last, rfl⟩ := List.eq_nil_or_concat rest
      · cases (List.append_inj' split rfl).2
      · rw [List.concat_eq_append, ← List.cons_append, ← List.append_assoc] at split
        obtain ⟨rfl, closing⟩ := List.append_inj' split rfl
        cases closing
        exact ⟨after, rfl, List.concat_eq_append⟩
    · rintro ⟨after, rfl, rfl⟩
      simp

theorem findSome?_eq_none_iff (before : List Char) :
    ((colonSplits before (noteEnd p.note)).findSome? fun (s, rest) => body? (some s) rest) = none ↔
      p.NoBodyInNote := by
  have later (rest : List Char) := h.exists_mem_colonSplits_noteEnd_iff before rest
  rw [List.findSome?_eq_none_iff, NoBodyInNote]
  constructor
  · intro none t given between after split
    obtain ⟨s, member⟩ := (later (after ++ [')'])).mpr ⟨t, given, between, after, split, rfl⟩
    exact (body?_eq_none_iff (some s)).mp (none _ member)
  · rintro none ⟨s, rest⟩ member
    obtain ⟨t, given, between, after, split, rfl⟩ := (later rest).mp ⟨s, member⟩
    exact (body?_eq_none_iff (some s)).mpr (none t given between after split)

/-- What is read after a colon in the note has no note. -/
theorem note_of_findSome? {before : List Char} {q : Parts}
    (found : ((colonSplits before (noteEnd p.note)).findSome? fun (s, rest) =>
      body? (some s) rest) = some q) : q.note = none ∧ ∃ t ∈ p.note, t ≠ [] := by
  obtain ⟨⟨s, rest⟩, member, taken⟩ := List.exists_of_findSome?_eq_some found
  obtain ⟨t, given, between, after, rfl, rfl⟩ :=
    (h.exists_mem_colonSplits_noteEnd_iff before rest).mp ⟨s, member⟩
  refine ⟨(isBody_of_body? taken).2.note_eq_none fun inner => ?_, _, given, by simp⟩
  obtain inner | closing := List.mem_append.mp inner
  · exact ((h.note _ given).2 '(' (by simp [inner])).1 rfl
  · cases List.mem_singleton.mp closing

/-! ### The ends of the text -/

theorem head_text : ∀ c ∈ p.text.head?, isBlank c = false := by
  rw [text]
  cases given : p.specifier with
  | none => exact h.head_bodyText
  | some s =>
    cases s with
    | nil =>
      rintro c ⟨⟩
      rfl
    | cons d s =>
      rintro c ⟨⟩
      by_contra blank
      have front := (h.specifier _ given).1.front
      rw [List.dropWhile_cons_of_pos (by simpa using blank)] at front
      have shorter := (List.dropWhile_suffix (l := s) isBlank).length_le
      rw [front, List.length_cons] at shorter
      omega

theorem exists_ending : ∃ before after c, p.bodyText = before ++ after ∧ c ∈ after ∧
    ∀ c ∈ after, isBlank c = false := by
  obtain ⟨some_number, plain⟩ := h.number_spec
  rw [bodyText, beforeNote]
  cases given : p.note with
  | some t =>
    refine ⟨p.number ++ unitText p.unit ++ noteStart (some t) ++ t, [')'], ')', by simp [noteEnd],
      List.mem_singleton_self _, List.forall_mem_singleton.mpr rfl⟩
  | none =>
    rw [noteStart, noteEnd, List.append_nil, List.append_nil, unitText]
    split
    · obtain ⟨c, cs, number⟩ := List.exists_cons_of_ne_nil some_number
      exact ⟨[], p.number, c, List.append_nil _, by simp [number],
        fun c member => (plain c member).1⟩
    · next some_unit =>
      obtain ⟨c, cs, unit⟩ := List.exists_cons_of_ne_nil some_unit
      exact ⟨p.number ++ [' '], p.unit, c, by simp, by simp [unit],
        fun c member => (h.unit c member).1⟩

theorem trimChars_text : trimChars p.text = p.text := by
  obtain ⟨before, after, c, ending, member, plain⟩ := h.exists_ending
  obtain ⟨front, whole⟩ : ∃ front, p.text = front ++ after := by
    rw [text, ending]
    cases p.specifier with
    | none => exact ⟨before, rfl⟩
    | some s => exact ⟨s ++ ':' :: ' ' :: before, by simp⟩
  have start : p.text.dropWhile isBlank = p.text := trimStart_of_head h.head_text
  have kept : after.rdropWhile isBlank = after := by
    refine List.rdropWhile_eq_self_iff.mpr fun some_after => ?_
    simp [plain _ (List.getLast_mem some_after)]
  rw [Text.trimChars_eq, start, whole, Text.rdropWhile_append_of_mem front member (plain c member),
    kept]

end WellFormed

end Parts

/-! ### Entries -/

theorem trimChars_getD {cs : Option (List Char)} (trimmed : ∀ t ∈ cs, Trimmed t) :
    trimChars (cs.getD []) = cs.getD [] := by
  cases cs with
  | none => rfl
  | some t => exact (trimmed t rfl).trimChars_eq

theorem Entry.exists_parts_of_read? {text : String} {entry : Entry}
    (read : Entry.read? text = some entry) : ∃ parts,
      parts? (trimChars text.toList) = some parts ∧
      entry.quantity.units = String.ofList parts.unit ∧
      entry.note = String.ofList (trimChars (parts.note.getD [])) := by
  obtain ⟨parts, x, chosen, -, -, rfl⟩ := Entry.read?_eq_some_iff.mp read
  exact ⟨parts, parts?_eq_some_iff.mpr chosen, rfl, rfl⟩

/-- An entry is read as the parts it was written with, exactly if its note has a unit before it or a
blank in it and no body comes after a colon in the note. -/
theorem Entry.read?_text_iff {p : Parts} {x : Float} (formed : p.WellFormed)
    (spelled : Number.readChars? p.number = some x) (nonzero : (x == 0.0) = false) :
    Entry.read? (String.ofList p.text) = some (p.entry x) ↔ p.NoteApart ∧ p.NoBodyInNote := by
  obtain ⟨before, taken⟩ := formed.exists_parts?_text
  rw [← formed.trimChars_text, ← String.toList_ofList (l := p.text)] at taken
  rw [← formed.findSome?_eq_none_iff before]
  constructor
  · intro read
    obtain ⟨q, taken', units, note⟩ := Entry.exists_parts_of_read? read
    rw [taken] at taken'
    cases found : (colonSplits before (Parts.noteEnd p.note)).findSome? fun (s, rest) =>
        body? (some s) rest with
    | some q' =>
      -- The note would be empty.
      rw [found] at taken'
      cases taken'
      obtain ⟨no_note, t, given, some_text⟩ := formed.note_of_findSome? found
      rw [no_note, Parts.entry, given, String.ofList_inj] at note
      exact absurd note some_text
    | none =>
      refine ⟨?_, rfl⟩
      by_contra joined
      obtain ⟨no_unit, unit, some_unit, body⟩ :=
        formed.exists_body?_of_not_noteApart p.specifier joined
      rw [found, Option.none_or, body] at taken'
      cases taken'
      rw [Parts.entry, no_unit, String.ofList_inj] at units
      exact absurd units.symm some_unit
  · rintro ⟨apart, none⟩
    rw [none, Option.none_or, formed.body?_of_noteApart p.specifier apart] at taken
    have specifier : trimChars (p.specifier.getD []) = p.specifier.getD [] :=
      trimChars_getD fun s given => (formed.specifier s given).1
    have note : trimChars (p.note.getD []) = p.note.getD [] :=
      trimChars_getD fun t given => (formed.note t given).1
    unfold Entry.read?
    rw [taken]
    dsimp only
    rw [spelled]
    dsimp only
    rw [nonzero, if_neg Bool.false_ne_true, specifier, note]
    rfl

/-! ### A note of one word, and a full entry -/

def approximateParts : Parts where
  specifier := none
  number := ['5']
  unit := []
  note := some "approx".toList

def depthParts : Parts where
  specifier := some "Max depth".toList
  number := "10994".toList
  unit := ['m']
  note := some "Challenger Deep".toList

theorem read?_text_approximate :
    Entry.read? "5 (approx)" ≠ some ⟨"", ⟨5.0, ""⟩, "approx"⟩ ∧
      Entry.read? "Max depth: 10994 m (Challenger Deep)" =
        some ⟨"max depth", ⟨10994.0, "m"⟩, "Challenger Deep"⟩ := by
  have approximate : approximateParts.WellFormed := by
    refine ⟨?_, by decide, ?_, ?_⟩
    · rintro s ⟨⟩
    · rintro c ⟨⟩
    · rintro t ⟨⟩
      exact ⟨⟨by decide, by decide⟩, by simp⟩
  have depth : depthParts.WellFormed := by
    refine ⟨?_, by decide, by simp [depthParts]; decide, ?_⟩
    · rintro s ⟨⟩
      exact ⟨⟨by decide, by decide⟩, by simp⟩
    · rintro t ⟨⟩
      exact ⟨⟨by decide, by decide⟩, by simp⟩
  have not_approximate := Entry.read?_text_iff (x := 5.0) approximate (by decide +kernel)
    (by decide +kernel)
  have as_depth := Entry.read?_text_iff (x := 10994.0) depth (by decide +kernel)
    (by decide +kernel)
  constructor
  · exact not_approximate.not.mpr fun both => by
      have blank := both.1 rfl _ rfl
      revert blank
      decide
  · refine as_depth.mpr ⟨?_, Parts.noBodyInNote_of_no_colon ?_⟩
    · rintro ⟨⟩
    · rintro t ⟨⟩
      decide

end FermiQuiz.Sheet
