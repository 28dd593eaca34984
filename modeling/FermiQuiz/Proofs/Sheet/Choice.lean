import Mathlib
import FermiQuiz.Proofs.Sheet.Bodies

/-!
# The choice between the ways to read an entry

A text may be taken apart as the parts of an entry in several ways: at another colon, with a
shorter number, with a part of the unit as a note. Of these the parts that are read have the
right-most colon, then the longest number part, then the longest unit; and whatever a text is taken
apart into, nothing of it is lost but blanks, the colon and the parentheses.
-/

namespace FermiQuiz.Sheet

open Number (isDigit)
open Text (isBlank trimStart trimChars)

/-! ### Ways to take a text apart -/

/-- What is written of a specifier: the colon comes with it. -/
def specifierText : Option (List Char) → List Char
  | none => []
  | some specifier => specifier ++ [':']

/-- What is written of a note: the parentheses come with it. -/
def noteText : Option (List Char) → List Char
  | none => []
  | some note => '(' :: (note ++ [')'])

/-- A text is blanks, a unit of one word or none, blanks, and a note of one line or none. -/
structure Ends (cs unit : List Char) (note : Option (List Char)) : Prop where
  text : ∃ before between, (∀ c ∈ before, isBlank c = true) ∧ (∀ c ∈ between, isBlank c = true) ∧
    cs = before ++ (unit ++ (between ++ noteText note))
  unit : ∀ c ∈ unit, isBlank c = false
  note : ∀ t ∈ note, '\n' ∉ t

/-- A text is blanks, a number part, and what may follow one. -/
structure IsBody (cs : List Char) (p : Parts) : Prop where
  text : ∃ blanks rest, (∀ c ∈ blanks, isBlank c = true) ∧ cs = blanks ++ (p.number ++ rest) ∧
    Ends rest p.unit p.note
  number : IsNumberPart p.number

/-- A text is a body, behind a specifier of one line or without one. -/
structure Splits (cs : List Char) (p : Parts) : Prop where
  text : ∃ body, cs = specifierText p.specifier ++ body ∧ IsBody body p
  specifier : ∀ s ∈ p.specifier, '\n' ∉ s

/-- Of the ways to take a text apart one has the right-most colon, if any has one, then the longest
number part, then the longest unit. -/
structure IsChosen (cs : List Char) (p : Parts) : Prop where
  splits : Splits cs p
  colon : ∀ q, Splits cs q →
    (specifierText q.specifier).length ≤ (specifierText p.specifier).length
  number : ∀ q, Splits cs q → q.specifier = p.specifier → q.number.length ≤ p.number.length
  unit : ∀ q, Splits cs q → q.specifier = p.specifier → q.number = p.number →
    q.unit.length ≤ p.unit.length

/-! ### Units and notes -/

theorem enclosed?_eq_some_iff {cs note : List Char} :
    enclosed? cs = some note ↔ cs = noteText (some note) ∧ '\n' ∉ note := by
  constructor
  · intro found
    unfold enclosed? at found
    split at found
    · next inner =>
      split at found
      · next closed =>
        rw [Bool.and_eq_true, decide_eq_true_eq] at closed
        obtain ⟨init, rfl⟩ := List.getLast?_eq_some_iff.mp closed.1
        rw [List.dropLast_concat] at found
        cases found
        exact ⟨rfl, by simpa using closed.2⟩
      · cases found
    · cases found
  · rintro ⟨rfl, line⟩
    exact enclosed?_note line

theorem exists_last_parenthesis {cs : List Char} (opened : '(' ∈ cs) :
    ∃ unit rest, cs = unit ++ '(' :: rest ∧ '(' ∉ rest := by
  obtain ⟨after, before, same, free⟩ := List.eq_append_cons_of_mem (List.mem_reverse.mpr opened)
  refine ⟨before.reverse, after.reverse, ?_, fun member => free (List.mem_reverse.mp member)⟩
  rw [← List.reverse_reverse cs, same]
  simp

theorem exists_of_beforeParenthesis? {cs unit opening : List Char}
    (found : beforeParenthesis? cs = some (unit, opening)) : cs = unit ++ opening := by
  by_cases opened : '(' ∈ cs
  · obtain ⟨front, rest, rfl, free⟩ := exists_last_parenthesis opened
    rw [beforeParenthesis?_append front free] at found
    cases found
    rfl
  · rw [beforeParenthesis?_of_free opened] at found
    cases found

theorem noteText_injective : Function.Injective noteText := by
  intro note note' same
  cases note with
  | none =>
    cases note' with
    | none => rfl
    | some t' => cases same
  | some t =>
    cases note' with
    | none => cases same
    | some t' => rw [List.append_cancel_right (List.cons.inj same).2]

theorem trimStart_append {blanks cs : List Char} (blank : ∀ c ∈ blanks, isBlank c = true) :
    trimStart (blanks ++ cs) = trimStart cs :=
  List.dropWhile_append_of_pos blank

theorem trimStart_noteText (note : Option (List Char)) :
    trimStart (noteText note) = noteText note := by
  cases note <;> rfl

theorem exists_blanks (cs : List Char) :
    ∃ blanks, (∀ c ∈ blanks, isBlank c = true) ∧ cs = blanks ++ trimStart cs :=
  ⟨cs.takeWhile isBlank, fun _ => List.mem_takeWhile_imp, List.takeWhile_append_dropWhile.symm⟩

section

variable {cs unit : List Char} {note note' : Option (List Char)}

theorem Ends.exists_trimStart_eq (ends : Ends cs unit note) : ∃ between,
    (∀ c ∈ between, isBlank c = true) ∧ trimStart cs = unit ++ (between ++ noteText note) ∧
      (unit = [] → between = []) := by
  obtain ⟨before, between, blank, blank', rfl⟩ := ends.text
  rw [trimStart_append blank]
  cases unit with
  | nil =>
    refine ⟨[], List.forall_mem_nil _, ?_, fun _ => rfl⟩
    rw [List.nil_append, trimStart_append blank', trimStart_noteText]
    rfl
  | cons c unit =>
    refine ⟨between, blank', trimStart_of_head ?_, fun none => absurd none (List.cons_ne_nil _ _)⟩
    rintro d ⟨⟩
    exact ends.unit c List.mem_cons_self

theorem Ends.note_unique (ends : Ends cs unit note) (ends' : Ends cs unit note') :
    note = note' := by
  obtain ⟨between, blank, text, -⟩ := ends.exists_trimStart_eq
  obtain ⟨between', blank', text', -⟩ := ends'.exists_trimStart_eq
  have same := congrArg trimStart (List.append_cancel_left (text.symm.trans text'))
  rw [trimStart_append blank, trimStart_append blank', trimStart_noteText,
    trimStart_noteText] at same
  exact noteText_injective same

theorem exists_token (cs : List Char) : ∃ token after, trimStart cs = token ++ after ∧
    (∀ c ∈ token, isBlank c = false) ∧ ∀ c ∈ after.head?, isBlank c = true := by
  refine ⟨(trimStart cs).takeWhile (!isBlank ·), (trimStart cs).dropWhile (!isBlank ·),
    List.takeWhile_append_dropWhile.symm, fun c member => ?_, fun c head => ?_⟩
  · simpa using List.mem_takeWhile_imp member
  · have stop := List.head?_dropWhile_not (!isBlank ·) (trimStart cs)
    rw [Option.mem_def.mp head] at stop
    simpa using stop

theorem ends_of_unitAndNote? (taken : unitAndNote? cs = some (unit, note)) :
    Ends cs unit note := by
  obtain ⟨blanks, blank, text⟩ := exists_blanks cs
  obtain ⟨token, after, start, plain, stops⟩ := exists_token cs
  obtain ⟨blanks', blank', text'⟩ := exists_blanks after
  rw [unitAndNote?_eq start plain stops] at taken
  split at taken
  · next none_left =>
    cases taken
    rw [List.isEmpty_iff] at none_left
    rw [none_left, List.append_nil] at text'
    refine ⟨⟨blanks, after, blank, text' ▸ blank', ?_⟩, plain, by rintro t ⟨⟩⟩
    rw [noteText, List.append_nil, ← start, ← text]
  · obtain found | ⟨-, found⟩ := Option.or_eq_some_iff.mp taken
    · obtain ⟨t, enclosed, same⟩ := Option.map_eq_some_iff.mp found
      cases same
      obtain ⟨written, line⟩ := enclosed?_eq_some_iff.mp enclosed
      refine ⟨⟨blanks, blanks', blank, blank', ?_⟩, plain, ?_⟩
      · rw [← written, ← text', ← start, ← text]
      · rintro t ⟨⟩
        exact line
    · obtain ⟨⟨front, opening⟩, opened, found⟩ := Option.bind_eq_some_iff.mp found
      obtain ⟨t, enclosed, same⟩ := Option.map_eq_some_iff.mp found
      cases same
      obtain ⟨written, line⟩ := enclosed?_eq_some_iff.mp enclosed
      have divided := exists_of_beforeParenthesis? opened
      refine ⟨⟨blanks, [], blank, List.forall_mem_nil _, ?_⟩, ?_, ?_⟩
      · rw [← written, List.nil_append, text, start, divided, List.append_assoc]
      · exact fun c member => plain c (divided ▸ List.mem_append_left _ member)
      · rintro t ⟨⟩
        exact line

/-- From each parenthesis on that opens in it, a note is a note. -/
theorem exists_enclosed?_of_suffix {t front rest : List Char} (line : '\n' ∉ t)
    (same : noteText (some t) = front ++ '(' :: rest) :
    ∃ t', enclosed? ('(' :: rest) = some t' := by
  cases front with
  | nil => exact ⟨t, enclosed?_eq_some_iff.mpr ⟨same.symm, line⟩⟩
  | cons c front =>
    have inner : t ++ [')'] = front ++ '(' :: rest := (List.cons.inj same).2
    obtain rfl | ⟨init, last, rfl⟩ := List.eq_nil_or_concat' rest
    · cases (List.append_inj_right' inner rfl)
    · rw [← List.cons_append, ← List.append_assoc] at inner
      obtain ⟨rfl, closing⟩ := List.append_inj' inner rfl
      cases closing
      rw [List.mem_append, not_or] at line
      exact ⟨init, enclosed?_note fun member => line.2 (List.mem_cons_of_mem _ member)⟩

/-- The first word of what comes after a number begins with the unit. -/
theorem exists_token_eq {token after rest : List Char} (plain : ∀ c ∈ unit, isBlank c = false)
    (stops : ∀ c ∈ after.head?, isBlank c = true) (same : unit ++ rest = token ++ after) :
    ∃ more, token = unit ++ more ∧ rest = more ++ after := by
  obtain ⟨more, left, right⟩ | ⟨more, left, right⟩ := List.append_eq_append_iff.mp same
  · exact ⟨more, left, right⟩
  · cases more with
    | nil => exact ⟨[], by rw [left, List.append_nil, List.append_nil], right.symm⟩
    | cons c more =>
      have blank := stops c (by rw [right]; rfl)
      rw [plain c (by rw [left]; simp)] at blank
      cases blank

/-- If the word goes on behind the unit, then with the parenthesis of a note. -/
theorem exists_parenthesis {between more after : List Char}
    (blank : ∀ c ∈ between, isBlank c = true) (plain : ∀ c ∈ more, isBlank c = false)
    (same : between ++ noteText note = more ++ after) :
    more = [] ∨ between = [] ∧ ∃ t tail, note = some t ∧ more = '(' :: tail := by
  cases more with
  | nil => exact Or.inl rfl
  | cons c more =>
    right
    cases between with
    | cons d between =>
      obtain rfl : d = c := (List.cons.inj same).1
      exact absurd (blank d List.mem_cons_self) (by simp [plain d List.mem_cons_self])
    | nil =>
      cases note with
      | none => cases same
      | some t =>
        obtain rfl : '(' = c := (List.cons.inj same).1
        exact ⟨rfl, t, more, rfl, rfl⟩

/-- If a text may be taken for a unit and a note, one is read with no shorter unit. -/
theorem Ends.exists_unitAndNote? (ends : Ends cs unit note) :
    ∃ unit' note', unitAndNote? cs = some (unit', note') ∧ unit.length ≤ unit'.length := by
  obtain ⟨between, blank, text, -⟩ := ends.exists_trimStart_eq
  obtain ⟨token, after, start, plain, stops⟩ := exists_token cs
  obtain ⟨more, rfl, rest⟩ := exists_token_eq ends.unit stops (text.symm.trans start)
  have longer : unit.length ≤ (unit ++ more).length := by simp
  rw [unitAndNote?_eq start plain stops]
  split
  · exact ⟨_, _, rfl, longer⟩
  · next some_left =>
    rw [List.forall_mem_append] at plain
    obtain rfl | ⟨rfl, t, tail, rfl, rfl⟩ := exists_parenthesis blank plain.2 rest
    · -- All that is left behind the unit is a note.
      have left : trimStart after = noteText note := by
        rw [List.nil_append] at rest
        rw [← rest, trimStart_append blank, trimStart_noteText]
      rw [left] at some_left ⊢
      cases note with
      | none => exact absurd rfl some_left
      | some t =>
        rw [enclosed?_eq_some_iff.mpr ⟨rfl, ends.note t rfl⟩]
        exact ⟨_, _, rfl, longer⟩
    · -- The word takes in a part of the note, and the unit ends where the last parenthesis opens.
      cases enclosed? (trimStart after) with
      | some t' => exact ⟨_, _, rfl, longer⟩
      | none =>
        have opened : '(' ∈ '(' :: tail := List.mem_cons_self
        obtain ⟨front, last, divided, free⟩ := exists_last_parenthesis opened
        have suffix : noteText (some t) = front ++ '(' :: (last ++ after) := by
          rw [← List.cons_append, ← List.append_assoc, ← divided]
          exact rest
        obtain ⟨t', enclosed⟩ := exists_enclosed?_of_suffix (ends.note t rfl) suffix
        refine ⟨unit ++ front, some t', ?_, by simp⟩
        rw [divided, ← List.append_assoc, beforeParenthesis?_append _ free, Option.map_none,
          Option.none_or, Option.bind_some]
        dsimp only
        rw [List.cons_append, enclosed]
        rfl

end

/-! ### Numbers -/

/-- What the longest number part takes more than another one is taken from the unit. -/
theorem Ends.exists_of_append {more after unit : List Char} {note : Option (List Char)}
    (ends : Ends (more ++ after) unit note) (signs : ∀ c ∈ more, IsNumberSign c) :
    ∃ unit', unit = more ++ unit' ∧ Ends after unit' note := by
  cases more with
  | nil => exact ⟨unit, rfl, ends⟩
  | cons c more =>
    have start : trimStart (c :: more ++ after) = c :: more ++ after := by
      refine trimStart_of_head ?_
      rintro d ⟨⟩
      exact isBlank_of_isNumberSign (signs c List.mem_cons_self)
    obtain ⟨between, blank, text, -⟩ := ends.exists_trimStart_eq
    rw [start] at text
    obtain ⟨unit', rfl, rest⟩ | ⟨tail, taken, rest⟩ := List.append_eq_append_iff.mp text
    · refine ⟨unit', rfl, ⟨[], between, List.forall_mem_nil _, blank, rest⟩, ?_, ends.note⟩
      exact fun c member => ends.unit c (List.mem_append_right _ member)
    · cases tail with
      | nil =>
        rw [List.append_nil] at taken
        rw [List.nil_append] at rest
        refine ⟨[], by rw [taken, List.append_nil], ?_, List.forall_mem_nil _, ends.note⟩
        exact ⟨[], between, List.forall_mem_nil _, blank, rest.symm⟩
      | cons d tail =>
        -- Neither a blank nor a parenthesis goes on with a number.
        have sign : IsNumberSign d := signs d (by rw [taken]; simp)
        have plain := isBlank_of_isNumberSign sign
        cases between with
        | cons e between =>
          obtain rfl : e = d := (List.cons.inj rest).1
          exact absurd (blank e List.mem_cons_self) (by simp [plain])
        | nil =>
          cases note with
          | none => cases rest
          | some t => exact absurd (List.cons.inj rest).1.symm (ne_of_isNumberSign sign).1

theorem isBody_of_body? {cs : List Char} {specifier : Option (List Char)} {p : Parts}
    (taken : body? specifier cs = some p) : p.specifier = specifier ∧ IsBody cs p := by
  unfold body? at taken
  split at taken
  · cases taken
  · next number rest found =>
    obtain ⟨⟨unit, note⟩, read, rfl⟩ := Option.map_eq_some_iff.mp taken
    obtain ⟨blanks, blank, text⟩ := exists_blanks cs
    refine ⟨rfl, ⟨blanks, rest, blank, ?_, ends_of_unitAndNote? read⟩,
      isNumberPart_of_takeNumbers? found⟩
    rw [takeNumbers?_append found]
    exact text

section

variable {cs : List Char} {p q : Parts}

/-- There is no note without a parenthesis that opens it. -/
theorem IsBody.note_eq_none (is_body : IsBody cs p) (open_free : '(' ∉ cs) : p.note = none := by
  obtain ⟨blanks, rest, -, rfl, ends⟩ := is_body.text
  obtain ⟨before, between, -, -, rfl⟩ := ends.text
  cases given : p.note with
  | none => rfl
  | some t => simp [given, noteText] at open_free

theorem IsBody.exists_trimStart_eq (is_body : IsBody cs p) :
    ∃ rest, trimStart cs = p.number ++ rest ∧ Ends rest p.unit p.note := by
  obtain ⟨blanks, rest, blank, rfl, ends⟩ := is_body.text
  refine ⟨rest, ?_, ends⟩
  rw [trimStart_append blank]
  refine trimStart_of_head fun c head => ?_
  have some_number : p.number ≠ [] := by
    obtain ⟨d, tail, begins | begins, -⟩ := beginsNumber_of_isNumberPart is_body.number
    · exact begins ▸ List.cons_ne_nil _ _
    · exact begins ▸ List.cons_ne_nil _ _
  rw [List.head?_append_of_ne_nil _ some_number] at head
  exact isBlank_of_isNumberSign
    (isNumberSign_of_isNumberPart is_body.number c (List.mem_of_head? head))

/-- If a text may be taken for a body, one is read with no shorter number part, and with no shorter
unit if the number part is the same. -/
theorem IsBody.exists_body? (is_body : IsBody cs q) (specifier : Option (List Char)) :
    ∃ p, body? specifier cs = some p ∧ q.number.length ≤ p.number.length ∧
      (q.number = p.number → q.unit.length ≤ p.unit.length) := by
  obtain ⟨rest, text, ends⟩ := is_body.exists_trimStart_eq
  obtain ⟨more, after, found, rfl⟩ := takeNumbers?_of_isNumberPart is_body.number rest
  have signs : ∀ c ∈ q.number ++ more, IsNumberSign c :=
    isNumberSign_of_isNumberPart (isNumberPart_of_takeNumbers? found)
  obtain ⟨left, taken, ends'⟩ :=
    ends.exists_of_append fun c member => signs c (List.mem_append_right _ member)
  obtain ⟨unit, note, read, longer⟩ := ends'.exists_unitAndNote?
  refine ⟨⟨specifier, q.number ++ more, unit, note⟩, ?_, by simp, fun same => ?_⟩
  · rw [body?, text, found]
    dsimp only
    rw [read]
    rfl
  · obtain rfl : more = [] := List.self_eq_append_right.mp same
    rwa [taken]

end

/-! ### Colons -/

/-- Of the cuts at colons a later one has a shorter text before it. -/
theorem pairwise_colonSplits (before cs : List Char) :
    (colonSplits before cs).Pairwise fun a b => b.1.length < a.1.length := by
  induction cs generalizing before with
  | nil => exact List.Pairwise.nil
  | cons c cs ih =>
    rw [colonSplits]
    split
    · exact List.Pairwise.nil
    · dsimp only
      split
      · refine List.pairwise_append.mpr ⟨ih _, List.pairwise_singleton _ _, ?_⟩
        rintro ⟨s, rest⟩ member last at_colon
        obtain ⟨between, -, -, same⟩ := mem_colonSplits_iff.mp member
        rw [List.mem_singleton.mp at_colon, same]
        simp
      · exact ih _

/-! ### The parts that are read -/

section

variable {cs : List Char} {p q : Parts}

theorem splits_of_parts? (found : parts? cs = some p) : Splits cs p := by
  obtain later | ⟨-, whole⟩ := Option.or_eq_some_iff.mp found
  · obtain ⟨⟨s, rest⟩, member, read⟩ := List.exists_of_findSome?_eq_some later
    obtain ⟨between, line, text, rfl⟩ := mem_colonSplits_iff.mp member
    obtain ⟨specifier, is_body⟩ := isBody_of_body? read
    refine ⟨⟨rest, ?_, is_body⟩, ?_⟩
    · rw [specifier, text]
      simp [specifierText]
    · rw [specifier]
      rintro t ⟨⟩
      exact line
  · obtain ⟨specifier, is_body⟩ := isBody_of_body? whole
    refine ⟨⟨cs, ?_, is_body⟩, ?_⟩
    · rw [specifier]
      rfl
    · rw [specifier]
      rintro t ⟨⟩

/-- A way to take a text apart at a colon is found among its cuts. -/
theorem Splits.exists_mem_colonSplits {s : List Char} (splits : Splits cs q)
    (specifier : q.specifier = some s) : ∃ rest, (s, rest) ∈ colonSplits [] cs ∧ IsBody rest q := by
  obtain ⟨rest, text, is_body⟩ := splits.text
  rw [specifier] at text
  refine ⟨rest, mem_colonSplits_iff.mpr ⟨s, splits.specifier s specifier, ?_, rfl⟩, is_body⟩
  rw [text]
  simp [specifierText]

theorem Splits.isBody (splits : Splits cs q) (specifier : q.specifier = none) : IsBody cs q := by
  obtain ⟨rest, text, is_body⟩ := splits.text
  rw [specifier] at text
  exact text ▸ is_body

theorem Splits.isSome_parts? (splits : Splits cs q) : (parts? cs).isSome = true := by
  rw [parts?, Option.isSome_or, Bool.or_eq_true]
  cases specifier : q.specifier with
  | none =>
    obtain ⟨p, read, -⟩ := (splits.isBody specifier).exists_body? none
    exact Or.inr (Option.isSome_of_eq_some read)
  | some s =>
    obtain ⟨rest, member, is_body⟩ := splits.exists_mem_colonSplits specifier
    obtain ⟨p, read, -⟩ := is_body.exists_body? (some s)
    exact Or.inl (List.findSome?_isSome_iff.mpr ⟨_, member, Option.isSome_of_eq_some read⟩)

/-- A body that is read is read from the same text as any other with its specifier. -/
theorem IsBody.longest_of_body? {specifier : Option (List Char)} (is_body : IsBody cs q)
    (read : body? specifier cs = some p) : q.number.length ≤ p.number.length ∧
      (q.number = p.number → q.unit.length ≤ p.unit.length) := by
  obtain ⟨p', read', longest⟩ := is_body.exists_body? specifier
  rw [read] at read'
  cases read'
  exact longest

theorem Splits.longest_of_parts? (splits : Splits cs q) (found : parts? cs = some p) :
    (specifierText q.specifier).length ≤ (specifierText p.specifier).length ∧
      (q.specifier = p.specifier → q.number.length ≤ p.number.length ∧
        (q.number = p.number → q.unit.length ≤ p.unit.length)) := by
  obtain later | ⟨none_later, whole⟩ := Option.or_eq_some_iff.mp found
  · obtain ⟨front, ⟨s, rest⟩, back, cuts, read, none_before⟩ := List.findSome?_eq_some_iff.mp later
    have at_colon := (isBody_of_body? read).1
    rw [at_colon]
    cases specifier : q.specifier with
    | none => exact ⟨Nat.zero_le _, by rintro ⟨⟩⟩
    | some s' =>
      obtain ⟨rest', member, is_body⟩ := splits.exists_mem_colonSplits specifier
      have order := pairwise_colonSplits [] cs
      rw [cuts] at member order
      obtain before | member := List.mem_append.mp member
      · -- No body was read at a colon further on.
        obtain ⟨p', read', -⟩ := is_body.exists_body? (some s')
        have unread : body? (some s') rest' = none := none_before _ before
        rw [unread] at read'
        cases read'
      · obtain same | after := List.mem_cons.mp member
        · cases same
          exact ⟨le_rfl, fun _ => is_body.longest_of_body? read⟩
        · have shorter := (List.pairwise_cons.mp (List.pairwise_append.mp order).2.1).1 _ after
          refine ⟨by simpa [specifierText] using shorter.le, fun same => ?_⟩
          cases same
          exact absurd shorter (lt_irrefl _)
  · have no_colon := (isBody_of_body? whole).1
    rw [no_colon]
    cases specifier : q.specifier with
    | none => exact ⟨le_rfl, fun _ => (splits.isBody specifier).longest_of_body? whole⟩
    | some s =>
      obtain ⟨rest, member, is_body⟩ := splits.exists_mem_colonSplits specifier
      obtain ⟨p', read, -⟩ := is_body.exists_body? (some s)
      have unread : body? (some s) rest = none := List.findSome?_eq_none_iff.mp none_later _ member
      rw [unread] at read
      cases read

theorem isChosen_of_parts? (found : parts? cs = some p) : IsChosen cs p where
  splits := splits_of_parts? found
  colon _ splits := (splits.longest_of_parts? found).1
  number _ splits specifier := ((splits.longest_of_parts? found).2 specifier).1
  unit _ splits specifier number := ((splits.longest_of_parts? found).2 specifier).2 number

theorem specifierText_injective : Function.Injective specifierText := by
  intro specifier specifier' same
  cases specifier with
  | none =>
    cases specifier' with
    | none => rfl
    | some s' => exact absurd same.symm (List.append_ne_nil_of_right_ne_nil _ (by decide))
  | some s =>
    cases specifier' with
    | none => exact absurd same (List.append_ne_nil_of_right_ne_nil _ (by decide))
    | some s' => rw [List.append_cancel_right same]

/-- Two ways to take a body apart with parts that are equally long are the same. -/
theorem IsBody.unique (is_body : IsBody cs p) (is_body' : IsBody cs q)
    (specifier : p.specifier = q.specifier) (number : p.number.length = q.number.length)
    (unit : p.number = q.number → p.unit.length = q.unit.length) : p = q := by
  obtain ⟨rest, text, ends⟩ := is_body.exists_trimStart_eq
  obtain ⟨rest', text', ends'⟩ := is_body'.exists_trimStart_eq
  obtain ⟨number, same⟩ := List.append_inj (text.symm.trans text') number
  rw [← same] at ends'
  obtain ⟨between, -, text, -⟩ := ends.exists_trimStart_eq
  obtain ⟨between', -, text', -⟩ := ends'.exists_trimStart_eq
  obtain ⟨unit, -⟩ := List.append_inj (text.symm.trans text') (unit number)
  rw [← unit] at ends'
  have note := ends.note_unique ends'
  obtain ⟨specifier', number', unit', note'⟩ := p
  dsimp only at specifier number unit note
  rw [specifier, number, unit, note]

theorem IsChosen.unique (chosen : IsChosen cs p) (chosen' : IsChosen cs q) : p = q := by
  obtain ⟨body, text, is_body⟩ := chosen.splits.text
  obtain ⟨body', text', is_body'⟩ := chosen'.splits.text
  have colon := le_antisymm (chosen'.colon p chosen.splits) (chosen.colon q chosen'.splits)
  obtain ⟨same, rfl⟩ := List.append_inj (text.symm.trans text') colon
  have specifier := specifierText_injective same
  refine is_body.unique is_body' specifier ?_ fun number => ?_
  · exact le_antisymm (chosen'.number p chosen.splits specifier)
      (chosen.number q chosen'.splits specifier.symm)
  · exact le_antisymm (chosen'.unit p chosen.splits specifier number)
      (chosen.unit q chosen'.splits specifier.symm number.symm)

theorem parts?_eq_some_iff : parts? cs = some p ↔ IsChosen cs p := by
  refine ⟨isChosen_of_parts?, fun chosen => ?_⟩
  obtain ⟨q, found⟩ := Option.isSome_iff_exists.mp chosen.splits.isSome_parts?
  rw [found, chosen.unique (isChosen_of_parts? found)]

end

/-! ### Entries -/

theorem Entry.read?_eq_some_iff {text : String} {entry : Entry} :
    Entry.read? text = some entry ↔ ∃ p x, IsChosen (trimChars text.toList) p ∧
      Number.readChars? p.number = some x ∧ (x == 0.0) = false ∧
        entry = {
          specifier := String.ofList (Text.lowerChars (trimChars (p.specifier.getD [])))
          quantity := ⟨x, String.ofList p.unit⟩
          note := String.ofList (trimChars (p.note.getD [])) } := by
  simp only [← parts?_eq_some_iff]
  constructor
  · intro read
    unfold Entry.read? at read
    split at read
    · cases read
    · next p found =>
      split at read
      · cases read
      · next x value =>
        split at read
        · cases read
        · next nonzero =>
          cases read
          exact ⟨p, x, found, value, Bool.eq_false_iff.mpr nonzero, rfl⟩
  · rintro ⟨p, x, found, value, nonzero, rfl⟩
    unfold Entry.read?
    rw [found]
    dsimp only
    rw [value]
    dsimp only
    rw [nonzero]
    rfl

/-- A text is an entry exactly if it can be taken apart and, where its parts are chosen, the number
part is a single number in ASCII that is not zero. The entry has the unit as it stands, the
specifier in lower case, and the note, without the blanks around them. Its number is the double
nearest to what is spelled, which is zero for what is too small. -/
theorem entry_of_chosen_parts (text : String) :
    (∀ p, Splits (trimChars text.toList) p →
      ∃! chosen, IsChosen (trimChars text.toList) chosen) ∧
    (∀ n, IsNumber isDigit n →
      ∃ l, Json.parts? n = some l ∧ Number.readChars? n = some l.nearest ∧
        ((l.nearest == 0.0) = true ↔ (l.coefficient * 10 ^ l.scale : ℚ) ≤ Number.underflow)) ∧
    (∀ entry, Entry.read? text = some entry ↔ ∃ p x, IsChosen (trimChars text.toList) p ∧
      IsNumber isDigit p.number ∧ Number.readChars? p.number = some x ∧ (x == 0.0) = false ∧
        entry = {
          specifier := String.ofList (Text.lowerChars (trimChars (p.specifier.getD [])))
          quantity := ⟨x, String.ofList p.unit⟩
          note := String.ofList (trimChars (p.note.getD [])) }) := by
  refine ⟨fun p splits => ?_, fun n number => ?_, fun entry => ?_⟩
  · obtain ⟨chosen, found⟩ := Option.isSome_iff_exists.mp splits.isSome_parts?
    have is_chosen := isChosen_of_parts? found
    exact ⟨chosen, is_chosen, fun other is_chosen' => is_chosen'.unique is_chosen⟩
  · obtain ⟨l, parts⟩ := Option.isSome_iff_exists.mp (isLiteral_iff.mpr number)
    exact ⟨l, parts, Json.readChars?_of_parts? parts, l.nearest_beq_zero_iff⟩
  · rw [Entry.read?_eq_some_iff]
    refine exists_congr fun p => exists_congr fun x => and_congr_right fun chosen => ?_
    refine ⟨fun ⟨value, rest⟩ => ⟨?_, value, rest⟩, fun ⟨_, value, rest⟩ => ⟨value, rest⟩⟩
    obtain ⟨body, -, is_body⟩ := chosen.splits.text
    exact (isSome_readChars?_iff is_body.number).mp (Option.isSome_of_eq_some value)

/-- The right-most colon before a number, the longest number and the longest unit are chosen. -/
theorem entry_of_colons_and_notes :
    (∃! chosen, IsChosen "a:1:2m(b)(c d)".toList chosen) ∧
      (∃ l, Json.parts? ['2'] = some l ∧ Number.readChars? ['2'] = some l.nearest) ∧
      Entry.read? "a:1:2m(b)(c d)" = some ⟨"a:1", ⟨2.0, "m(b)"⟩, "c d"⟩ := by
  have found : parts? "a:1:2m(b)(c d)".toList =
      some ⟨some "a:1".toList, ['2'], "m(b)".toList, some "c d".toList⟩ := by decide +kernel
  have trimmed : trimChars "a:1:2m(b)(c d)".toList = "a:1:2m(b)(c d)".toList := by decide +kernel
  have number : IsNumber isDigit ['2'] := isLiteral_iff.mp (by decide)
  have chosen := isChosen_of_parts? found
  obtain ⟨unique, numbers, entries⟩ := entry_of_chosen_parts "a:1:2m(b)(c d)"
  rw [trimmed] at unique entries
  obtain ⟨l, parts, read, -⟩ := numbers ['2'] number
  exact ⟨unique _ chosen.splits, ⟨l, parts, read⟩,
    (entries _).mpr ⟨_, 2.0, chosen, number, by rfl, by decide, by rfl⟩⟩

end FermiQuiz.Sheet
