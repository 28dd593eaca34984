import FermiQuiz.Number.Digits

/-!
# Strings in TOML

A string is written on one line or over several, and with escapes (between `"`) or without
(between `'`). A body is first cut off at its closing mark, then its line ends are made uniform,
and then its escapes are resolved.
-/

namespace FermiQuiz.Toml

/-- A text that was read, and the text after it. -/
abbrev Taken := List Char × List Char

/-- A character that may stand in a string, line ends apart. -/
def isTextChar (c : Char) : Bool := c = '\t' || (decide (32 ≤ c.toNat) && decide (c.toNat ≠ 127))

def hasEscapes (mark : Char) : Bool := mark = '"'

def Taken.after (cs : List Char) (t : Taken) : Taken := (cs ++ t.1, t.2)

/-! ### Bodies -/

def lineBody? (mark : Char) : List Char → Option Taken
  | [] => none
  | c :: cs =>
    if c = mark then some ([], cs)
    else if !isTextChar c then none
    else if c = '\\' && hasEscapes mark then
      match cs with
      | [] => none
      | d :: cs => if isTextChar d then (lineBody? mark cs).map (.after [c, d]) else none
    else (lineBody? mark cs).map (.after [c])

/-- The body of a string over several lines, up to its three closing marks. Up to two marks
before those belong to the body. -/
def blockBody? (mark : Char) : List Char → Option Taken
  | [] => none
  | c :: cs =>
    if (c :: cs).take 3 = [mark, mark, mark] then
      let extra := ((cs.drop 2).takeWhile (· = mark)).take 2
      some (extra, (cs.drop 2).drop extra.length)
    else if !isTextChar c && c != '\n' && c != '\r' then none
    else if c = '\\' && hasEscapes mark then
      match cs with
      | [] => none
      | d :: cs => (blockBody? mark cs).map (.after [c, d])
    else (blockBody? mark cs).map (.after [c])

/-- A text whose lines all end in `\n`; a return not followed by it is refused. -/
def uniformLines? : List Char → Option (List Char)
  | [] => some []
  | '\r' :: '\n' :: cs => (uniformLines? cs).map ('\n' :: ·)
  | c :: cs => if c = '\r' then none else (uniformLines? cs).map (c :: ·)

/-! ### Escapes -/

inductive Escape where
  | none
  | begun
  /-- Before so many digits of a code point, whose first digits give `value`. -/
  | code (left value : Nat)
  /-- After a backslash and blanks, before the end of the line. -/
  | lineEnd
  /-- After a backslash at the end of a line: blanks and further line ends are dropped. -/
  | lineStart
  deriving DecidableEq, Repr

def plainEscape? (c : Char) : Option Char :=
  if c = '"' || c = '\\' then some c
  else if c = 'b' then some (Char.ofNat 8)
  else if c = 't' then some '\t'
  else if c = 'n' then some '\n'
  else if c = 'f' then some (Char.ofNat 12)
  else if c = 'r' then some '\r'
  else none

def isBlank (c : Char) : Bool := c = ' ' || c = '\t'

def ofCode? (n : Nat) : Option Char := if n.isValidChar then some (Char.ofNat n) else none

/-- A character that follows a backslash: the character that is complete with it, and where it
leaves the reading. -/
def afterBackslash? (c : Char) : Option (List Char × Escape) :=
  if c = 'u' then some ([], .code 4 0)
  else if c = 'U' then some ([], .code 8 0)
  else if isBlank c then some ([], .lineEnd)
  else if c = '\n' then some ([], .lineStart)
  else (plainEscape? c).map fun e => ([e], .none)

def unescapeChar? (state : Escape) (c : Char) : Option (List Char × Escape) :=
  let plain : List Char × Escape := if c = '\\' then ([], .begun) else ([c], .none)
  match state with
  | .none => some plain
  | .begun => afterBackslash? c
  | .code left value => do
    let digit ← Number.hexDigit? c
    let value := value * 16 + digit
    if left ≤ 1 then (ofCode? value).map fun e => ([e], .none)
    else some ([], .code (left - 1) value)
  | .lineEnd =>
    if isBlank c then some ([], .lineEnd) else if c = '\n' then some ([], .lineStart) else none
  | .lineStart => if isBlank c || c = '\n' then some ([], .lineStart) else some plain

def unescapeFrom? (state : Escape) : List Char → Option (List Char)
  | [] => if state = .none || state = .lineStart then some [] else none
  | c :: cs =>
    match unescapeChar? state c with
    | none => none
    | some (done, state) => (unescapeFrom? state cs).map (done ++ ·)

def bodyText? (mark : Char) (body : List Char) : Option (List Char) :=
  if hasEscapes mark then unescapeFrom? .none body else some body

/-! ### Strings -/

def dropLineEnd : List Char → List Char
  | '\n' :: cs => cs
  | '\r' :: '\n' :: cs => cs
  | cs => cs

def lineText? (mark : Char) (cs : List Char) : Option Taken := do
  let (body, rest) ← lineBody? mark cs
  return (← bodyText? mark body, rest)

def blockText? (mark : Char) (cs : List Char) : Option Taken := do
  let (body, rest) ← blockBody? mark (dropLineEnd cs)
  return (← bodyText? mark (← uniformLines? body), rest)

def text? (mark : Char) (cs : List Char) : Option Taken :=
  if cs.take 2 = [mark, mark] then blockText? mark (cs.drop 2) else lineText? mark cs

end FermiQuiz.Toml
