import FermiQuiz.Toml.Value
import FermiQuiz.Number.Numeral
import FermiQuiz.Calendar

/-!
# Numbers, dates and other words in TOML

A value that is no string, list or table is one word. `word?` tells what it stands for.
-/

namespace FermiQuiz.Toml

open Number (isDigit hexDigit? ofDigits takeSign)

/-! ### Integers -/

/-- Digits with single underscores between them: the digits alone. -/
def digits? (isDigit : Char → Bool) : List Char → Option (List Char)
  | [] => none
  | [c] => if isDigit c then some [c] else none
  | c :: '_' :: cs => if isDigit c then (digits? isDigit cs).map (c :: ·) else none
  | c :: cs => if isDigit c then (digits? isDigit cs).map (c :: ·) else none

def decimal? (cs : List Char) : Option (List Char) :=
  (digits? isDigit cs).bind fun ds =>
    match ds with
    | ['0'] => some ds
    | '0' :: _ => none
    | _ => some ds

def integer64? (n : Int) : Option Toml :=
  if -9223372036854775808 ≤ n && n ≤ 9223372036854775807 then some (.integer n) else none

def based? (base : Nat) (cs : List Char) : Option Toml := do
  let isBaseDigit (c : Char) : Bool :=
    match hexDigit? c with
    | some d => decide (d < base)
    | none => false
  let ds ← digits? isBaseDigit cs
  integer64? (ds.foldl (fun n c => n * base + (hexDigit? c).getD 0) 0 : Nat)

def integer? : List Char → Option Toml
  | '0' :: 'x' :: cs => based? 16 cs
  | '0' :: 'o' :: cs => based? 8 cs
  | '0' :: 'b' :: cs => based? 2 cs
  | cs => do
    let (negative, cs) := takeSign cs
    let n := ofDigits (← decimal? cs)
    integer64? (if negative then -n else n)

/-! ### Floats -/

/-- An exponent, after its letter: a sign and digits, which may begin with zeros. -/
def exponent? (cs : List Char) : Option (List Char) :=
  match cs with
  | '-' :: cs => (digits? isDigit cs).map ('-' :: ·)
  | '+' :: cs => digits? isDigit cs
  | cs => digits? isDigit cs

def isExponentMark (c : Char) : Bool := c = 'e' || c = 'E'

/-- The text after the whole part of a float, without underscores: a point and digits, an
exponent, or both. -/
def tail? : List Char → Option (List Char)
  | [] => none
  | c :: cs =>
    if isExponentMark c then (exponent? cs).map ('e' :: ·)
    else if c = '.' then do
      let fraction ← digits? isDigit (cs.takeWhile fun c => !isExponentMark c)
      match cs.dropWhile fun c => !isExponentMark c with
      | [] => return '.' :: fraction
      | _ :: cs => return '.' :: fraction ++ 'e' :: (← exponent? cs)
    else none

/-- A float with digits. One that is too large is refused, unless it is negative. -/
def decimalFloat? (cs : List Char) : Option Toml := do
  let (negative, cs) := takeSign cs
  let isWhole (c : Char) : Bool := c != '.' && !isExponentMark c
  let whole ← decimal? (cs.takeWhile isWhole)
  let tail ← tail? (cs.dropWhile isWhole)
  let size ← Number.readChars? (whole ++ tail)
  if negative then return .float (-size)
  else if size == 1.0 / 0.0 then none
  else return .float size

def specialFloat? (cs : List Char) : Option Toml :=
  let (negative, cs) := takeSign cs
  let ofSize (x : Float) : Toml := .float (if negative then -x else x)
  if cs = ['i', 'n', 'f'] then some (ofSize (1.0 / 0.0))
  else if cs = ['n', 'a', 'n'] then some (ofSize (0.0 / 0.0))
  else none

/-! ### Dates and times -/

def isTwoDigits (least most : Nat) (cs : List Char) : Bool :=
  cs.length == 2 && cs.all isDigit && decide (least ≤ ofDigits cs) && decide (ofDigits cs ≤ most)

def isDateWord (cs : List Char) : Bool :=
  let year := cs.take 4
  let month := (cs.drop 5).take 2
  let day := cs.drop 8
  year.length == 4 && year.all isDigit && (cs.drop 4).take 1 == ['-'] &&
    isTwoDigits 1 12 month && (cs.drop 7).take 1 == ['-'] &&
    isTwoDigits 1 (daysInMonth (ofDigits year) (ofDigits month)) day

/-- A time such as `07:32:00.5`; a minute may have a leap second. -/
def isTimeWord (cs : List Char) : Bool :=
  isTwoDigits 0 23 (cs.take 2) && (cs.drop 2).take 1 == [':'] &&
    isTwoDigits 0 59 ((cs.drop 3).take 2) && (cs.drop 5).take 1 == [':'] &&
    isTwoDigits 0 60 ((cs.drop 6).take 2) &&
    match cs.drop 8 with
    | [] => true
    | c :: ds => c = '.' && !ds.isEmpty && ds.all isDigit

/-- A distance from universal time: `Z`, or a sign, hours and minutes. -/
def isOffsetWord : List Char → Bool
  | ['Z'] => true
  | ['z'] => true
  | c :: cs =>
    (c = '+' || c = '-') && isTwoDigits 0 23 (cs.take 2) && (cs.drop 2).take 1 == [':'] &&
      isTwoDigits 0 59 (cs.drop 3)
  | [] => false

def isClockWord (cs : List Char) : Bool :=
  let isClockChar (c : Char) : Bool := isDigit c || c = ':' || c = '.'
  isTimeWord (cs.takeWhile isClockChar) &&
    (match cs.dropWhile isClockChar with
      | [] => true
      | offset => isOffsetWord offset)

/-- A date, a time, or a date and a time with `T` or a blank between them. -/
def isDateTimeWord (cs : List Char) : Bool :=
  isDateWord cs || isTimeWord cs ||
    isDateWord (cs.take 10) &&
      match cs.drop 10 with
      | c :: clock => (c = 'T' || c = 't' || c = ' ') && isClockWord clock
      | [] => false

/-! ### Words -/

def word? (cs : List Char) : Option Toml :=
  if cs = ['t', 'r', 'u', 'e'] then some (.bool true)
  else if cs = ['f', 'a', 'l', 's', 'e'] then some (.bool false)
  else if isDateTimeWord cs then some .dateTime
  else integer? cs <|> decimalFloat? cs <|> specialFloat? cs

def endsWord (c : Char) : Bool :=
  c = ' ' || c = '\t' || c = '\n' || c = '\r' || c = '#' || c = ',' || c = ']' || c = '}'

/-- A word at the start of a text, and the rest. A date takes the time that follows it after a
blank. -/
def takeWord? (cs : List Char) : Option (Toml × List Char) :=
  let word := cs.takeWhile fun c => !endsWord c
  let rest := cs.dropWhile fun c => !endsWord c
  let alone := (word? word).map (·, rest)
  match rest with
  | ' ' :: d :: more =>
    if isDigit d && isDateWord word then
      let clock := (d :: more).takeWhile fun c => !endsWord c
      (word? (word ++ ' ' :: clock)).map (·, (d :: more).dropWhile fun c => !endsWord c)
    else alone
  | _ => alone

end FermiQuiz.Toml
