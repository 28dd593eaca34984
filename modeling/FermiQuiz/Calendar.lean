import FermiQuiz.Number.Numeral
import FermiQuiz.Text.Blank

/-!
# Calendar dates

Dates of the Gregorian calendar, carried on before its introduction. `Date.read?` reads
`year-month-day`; `Date.ofEpochDay` counts from 1 January 1970, and `momentText` writes a time of
day too.
-/

namespace FermiQuiz

def isLeapYear (year : Int) : Bool :=
  year % 4 == 0 && (year % 100 != 0 || year % 400 == 0)

def daysInMonth (year : Int) (month : Nat) : Nat :=
  if month == 2 then if isLeapYear year then 29 else 28
  else if month == 4 || month == 6 || month == 9 || month == 11 then 30
  else 31

/-- Whether a date exists; years of six digits are taken up to a limit. -/
def isDate (year : Int) (month day : Nat) : Bool :=
  decide (-262143 ≤ year) && decide (year ≤ 262142) &&
    decide (1 ≤ month) && decide (month ≤ 12) && decide (1 ≤ day) &&
    decide (day ≤ daysInMonth year month)

structure Date where
  year : Int
  month : Nat
  day : Nat
  valid : isDate year month day = true

namespace Date

def of? (year : Int) (month day : Nat) : Option Date :=
  if h : isDate year month day = true then some ⟨year, month, day, h⟩ else none

/-- Up to `width` digits, at least one, after any blanks: their value and the rest. -/
def takeNumber (width : Nat) (cs : List Char) : Option (Nat × List Char) :=
  let ds := (cs.takeWhile Number.isDigit).take width
  if ds.isEmpty then none else some (Number.ofDigits ds, cs.drop ds.length)

/-- A year: any number of digits after a sign, at most four without one. -/
def takeYear (cs : List Char) : Option (Int × List Char) :=
  match Text.trimStart cs with
  | '-' :: rest => (takeNumber rest.length rest).map fun (n, rest) => (-(n : Int), rest)
  | '+' :: rest => (takeNumber rest.length rest).map fun (n, rest) => ((n : Int), rest)
  | rest => (takeNumber 4 rest).map fun (n, rest) => ((n : Int), rest)

def takeDash : List Char → Option (List Char)
  | '-' :: rest => some rest
  | _ => none

/-- A date written year, month and day, with a dash between them. -/
def read? (s : String) : Option Date := do
  let (year, rest) ← takeYear s.toList
  let rest ← takeDash rest
  let (month, rest) ← takeNumber 2 (Text.trimStart rest)
  let rest ← takeDash rest
  let (day, rest) ← takeNumber 2 (Text.trimStart rest)
  if rest.isEmpty then of? year month day else none

/-- The year, month and day of a day counted from 1 January 1970. Years are counted from March,
so that a leap day ends its year. -/
def ofEpochDay (n : Int) : Int × Nat × Nat :=
  let z := n + 719468
  let era := Int.fdiv z 146097
  let dayOfEra := (Int.fmod z 146097).toNat
  let yearOfEra := (dayOfEra - dayOfEra / 1460 + dayOfEra / 36524 - dayOfEra / 146096) / 365
  let dayOfYear := dayOfEra - (365 * yearOfEra + yearOfEra / 4 - yearOfEra / 100)
  let m := (5 * dayOfYear + 2) / 153
  let day := dayOfYear - (153 * m + 2) / 5 + 1
  let month := if m < 10 then m + 3 else m - 9
  let year : Int := yearOfEra + era * 400
  (if month ≤ 2 then year + 1 else year, month, day)

end Date

def paddedText (width n : Nat) : String :=
  let ds := Number.digits n
  String.ofList (List.replicate (width - ds.length) '0' ++ ds)

/-- The moment so many nanoseconds after the start of 1970, such as
`2024-05-17T12:34:56.789012345+00:00`. -/
def momentText (nanoseconds : Int) : String :=
  let seconds := Int.fdiv nanoseconds 1000000000
  let second := (Int.fmod seconds 86400).toNat
  let (year, month, day) := Date.ofEpochDay (Int.fdiv seconds 86400)
  paddedText 4 year.toNat ++ "-" ++ paddedText 2 month ++ "-" ++ paddedText 2 day ++ "T" ++
    paddedText 2 (second / 3600) ++ ":" ++ paddedText 2 (second / 60 % 60) ++ ":" ++
    paddedText 2 (second % 60) ++ "." ++
    paddedText 9 (Int.fmod nanoseconds 1000000000).toNat ++ "+00:00"

end FermiQuiz
