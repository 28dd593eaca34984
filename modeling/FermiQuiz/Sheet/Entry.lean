import FermiQuiz.Quantity
import FermiQuiz.Number.Numeral
import FermiQuiz.Text.Lowercase
import FermiQuiz.Text.ScriptDigit
import FermiQuiz.Text.Blank

/-!
# Entries of a cell

An entry is `specifier: number unit (note)`, of which only the number has to be there. `parts?`
takes the parts of a text apart with the right-most colon that leaves a body; a body is a number,
or several with dashes between them, then a unit without blanks, then a note in parentheses.
`Entry.read?` wants the number to be one, and not zero.
-/

namespace FermiQuiz.Sheet

open Text (isBlank isScriptDigit trimStart trimChars)

/-! ### Numbers -/

/-- A zero, or digits that do not start with one. -/
def takeWhole? : List Char → Option (List Char × List Char)
  | [] => none
  | c :: cs =>
    if c = '0' then some (['0'], cs)
    else if '1' ≤ c && c ≤ '9' then
      some (c :: cs.takeWhile isScriptDigit, cs.dropWhile isScriptDigit)
    else none

def takeFraction (cs : List Char) : List Char × List Char :=
  match cs with
  | '.' :: rest =>
    if (rest.takeWhile isScriptDigit).isEmpty then ([], cs)
    else ('.' :: rest.takeWhile isScriptDigit, rest.dropWhile isScriptDigit)
  | _ => ([], cs)

def takeSign : List Char → List Char × List Char
  | '+' :: cs => (['+'], cs)
  | '-' :: cs => (['-'], cs)
  | cs => ([], cs)

def takeExponent (cs : List Char) : List Char × List Char :=
  match cs with
  | [] => ([], [])
  | c :: rest =>
    if c = 'e' || c = 'E' then
      let (sign, rest) := takeSign rest
      if (rest.takeWhile isScriptDigit).isEmpty then ([], cs)
      else (c :: sign ++ rest.takeWhile isScriptDigit, rest.dropWhile isScriptDigit)
    else ([], cs)

def takeMinus : List Char → List Char × List Char
  | '-' :: cs => (['-'], cs)
  | cs => ([], cs)

/-- The longest number at the start of a text, and the rest. -/
def takeNumber? (cs : List Char) : Option (List Char × List Char) :=
  let (minus, cs) := takeMinus cs
  match takeWhole? cs with
  | none => none
  | some (whole, cs) =>
    let (fraction, cs) := takeFraction cs
    let (exponent, cs) := takeExponent cs
    some (minus ++ whole ++ fraction ++ exponent, cs)

theorem takeWhole?_append {cs n rest : List Char} (h : takeWhole? cs = some (n, rest)) :
    n ++ rest = cs ∧ n ≠ [] := by
  cases cs with
  | nil => simp [takeWhole?] at h
  | cons c cs =>
    simp only [takeWhole?] at h
    split at h
    · next zero => cases h; simp [zero]
    · split at h
      · cases h; simp
      · simp at h

theorem takeFraction_append (cs : List Char) : (takeFraction cs).1 ++ (takeFraction cs).2 = cs := by
  unfold takeFraction
  split
  · split <;> simp
  · rfl

theorem takeSign_append (cs : List Char) : (takeSign cs).1 ++ (takeSign cs).2 = cs := by
  unfold takeSign
  split <;> rfl

theorem takeExponent_append (cs : List Char) : (takeExponent cs).1 ++ (takeExponent cs).2 = cs := by
  unfold takeExponent
  split
  · rfl
  · next c rest =>
    split
    · dsimp only
      split
      · rfl
      · simp [takeSign_append]
    · rfl

theorem takeMinus_append (cs : List Char) : (takeMinus cs).1 ++ (takeMinus cs).2 = cs := by
  unfold takeMinus
  split <;> rfl

theorem takeNumber?_append {cs n rest : List Char} (h : takeNumber? cs = some (n, rest)) :
    n ++ rest = cs ∧ n ≠ [] := by
  simp only [takeNumber?] at h
  split at h
  · simp at h
  · next whole after found =>
    obtain ⟨same, nonempty⟩ := takeWhole?_append found
    cases h
    refine ⟨?_, by simp [nonempty]⟩
    rw [List.append_assoc, takeExponent_append, List.append_assoc, takeFraction_append,
      List.append_assoc, same, takeMinus_append]

theorem takeNumber?_length {cs n rest : List Char} (h : takeNumber? cs = some (n, rest)) :
    rest.length < cs.length := by
  obtain ⟨same, nonempty⟩ := takeNumber?_append h
  rw [← same, List.length_append]
  have := List.length_pos_iff.mpr nonempty
  omega

/-- As many numbers, each after a dash, as come next. -/
def takeMore (cs : List Char) : List Char × List Char :=
  match cs with
  | '-' :: rest =>
    match h : takeNumber? rest with
    | none => ([], cs)
    | some (number, after) =>
      have := takeNumber?_length h
      let (more, last) := takeMore after
      ('-' :: number ++ more, last)
  | _ => ([], cs)
termination_by cs.length
decreasing_by simp only [List.length_cons]; omega

/-- The longest number part at the start of a text: numbers with dashes between them. -/
def takeNumbers? (cs : List Char) : Option (List Char × List Char) :=
  match takeNumber? cs with
  | none => none
  | some (number, rest) =>
    let (more, rest) := takeMore rest
    some (number ++ more, rest)

/-! ### Bodies -/

/-- The text between parentheses that enclose all of a text of one line. -/
def enclosed? : List Char → Option (List Char)
  | '(' :: inner =>
    if inner.getLast? = some ')' && !inner.contains '\n' then some inner.dropLast else none
  | _ => none

/-- The text before the right-most opening parenthesis, and the text from there on. -/
def beforeParenthesis? (cs : List Char) : Option (List Char × List Char) :=
  let back := cs.reverse
  match back.dropWhile (· != '(') with
  | [] => none
  | opening :: before => some (before.reverse, opening :: (back.takeWhile (· != '(')).reverse)

/-- The unit and the note of what follows a number, which is all of it. The unit is as long as
it can be: only if what follows it is no note does it end where a note begins. -/
def unitAndNote? (cs : List Char) : Option (List Char × Option (List Char)) :=
  let cs := trimStart cs
  let token := cs.takeWhile (!isBlank ·)
  let after := cs.dropWhile (!isBlank ·)
  match trimStart after with
  | [] => some (token, none)
  | rest =>
    match enclosed? rest with
    | some note => some (token, some note)
    | none =>
      match beforeParenthesis? token with
      | none => none
      | some (unit, opening) => (enclosed? (opening ++ after)).map fun note => (unit, some note)

structure Parts where
  specifier : Option (List Char)
  number : List Char
  unit : List Char
  note : Option (List Char)
  deriving DecidableEq, Repr

def body? (specifier : Option (List Char)) (cs : List Char) : Option Parts :=
  match takeNumbers? (trimStart cs) with
  | none => none
  | some (number, rest) =>
    (unitAndNote? rest).map fun (unit, note) => ⟨specifier, number, unit, note⟩

/-! ### Entries -/

/-- The ways to cut the first line of a text at a colon, the right-most first. What stands before
is given in addition, backwards. -/
def colonSplits (before : List Char) : List Char → List (List Char × List Char)
  | [] => []
  | c :: cs =>
    if c = '\n' then []
    else
      let later := colonSplits (c :: before) cs
      if c = ':' then later ++ [(before.reverse, cs)] else later

/-- The parts of an entry: after the right-most colon that a body follows, or without a
specifier. -/
def parts? (cs : List Char) : Option Parts :=
  ((colonSplits [] cs).findSome? fun (specifier, rest) => body? (some specifier) rest).or
    (body? none cs)

structure Entry where
  specifier : String
  quantity : Quantity
  note : String

/-- The entry that a text spells. Ranges of numbers and zero are no values. -/
def Entry.read? (text : String) : Option Entry :=
  match parts? (trimChars text.toList) with
  | none => none
  | some parts =>
    match Number.readChars? parts.number with
    | none => none
    | some number =>
      if number == 0.0 then none
      else some {
        specifier := String.ofList (Text.lowerChars (trimChars (parts.specifier.getD [])))
        quantity := ⟨number, String.ofList parts.unit⟩
        note := String.ofList (trimChars (parts.note.getD [])) }

end FermiQuiz.Sheet
