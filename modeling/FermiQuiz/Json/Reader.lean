import FermiQuiz.Json.Value
import FermiQuiz.Json.Text
import FermiQuiz.Json.Number

/-!
# Reading JSON

A document is cut into tokens by a machine that takes one character at a time, and the tokens are
put together by a machine that keeps the open lists and objects on a stack. Neither recurses, so
documents may be nested to any depth.
-/

namespace FermiQuiz.Json

open Number (isDigit hexDigit?)

/-! ### Tokens -/

inductive Token where
  | openArray
  | closeArray
  | openObject
  | closeObject
  | colon
  | comma
  | word (letters : List Char)
  | number (literal : List Char)
  | string (body : List Char)
  deriving DecidableEq, Repr

/-- Where the scanner stands in a string: among characters, after a backslash, or before so many
digits of a numbered escape. -/
inductive Escape where
  | none
  | begun
  | hex (left : Nat)
  deriving DecidableEq, Repr

/-- Where the scanner stands. What it has seen of a token is kept backwards. -/
inductive Mode where
  | between
  | word (seen : List Char)
  | number (seen : List Char)
  | string (seen : List Char) (escape : Escape)
  deriving DecidableEq, Repr

def isLayout (c : Char) : Bool := c = ' ' || c = '\n' || c = '\t' || c = '\r'

def isLetter (c : Char) : Bool := 'a' ≤ c && c ≤ 'z'

def isNumberChar (c : Char) : Bool :=
  isDigit c || c = '-' || c = '+' || c = '.' || c = 'e' || c = 'E'

/-- A character between tokens: the token it is, and where it leaves the scanner. -/
def begin? (c : Char) : Option (Option Token × Mode) :=
  if isLayout c then some (none, .between)
  else if c = '[' then some (some .openArray, .between)
  else if c = ']' then some (some .closeArray, .between)
  else if c = '{' then some (some .openObject, .between)
  else if c = '}' then some (some .closeObject, .between)
  else if c = ':' then some (some .colon, .between)
  else if c = ',' then some (some .comma, .between)
  else if c = '"' then some (none, .string [] .none)
  else if c = '-' || isDigit c then some (none, .number [c])
  else if isLetter c then some (none, .word [c])
  else none

def finish? : Mode → Option (List Token)
  | .between => some []
  | .word seen => some [.word seen.reverse]
  | .number seen => if isLiteral seen.reverse then some [.number seen.reverse] else none
  | .string _ _ => none

def inString? (seen : List Char) (escape : Escape) (c : Char) : Option (List Token × Mode) :=
  match escape with
  | .none =>
    if c = '"' then some ([.string seen.reverse], .between)
    else if c = '\\' then some ([], .string (c :: seen) .begun)
    else if c.toNat < 32 then none
    else some ([], .string (c :: seen) .none)
  | .begun =>
    if c = 'u' then some ([], .string (c :: seen) (.hex 4))
    else if (plainEscape? c).isSome then some ([], .string (c :: seen) .none)
    else none
  | .hex left =>
    if (hexDigit? c).isSome then
      some ([], .string (c :: seen) (if left ≤ 1 then .none else .hex (left - 1)))
    else none

/-- A character: the tokens that it completes, the last first, and where it leaves the scanner. -/
def scanChar? (mode : Mode) (c : Char) : Option (List Token × Mode) :=
  let endToken : Option (List Token × Mode) := do
    let done ← finish? mode
    let (token, mode) ← begin? c
    return (token.toList ++ done, mode)
  match mode with
  | .between => endToken
  | .word seen => if isLetter c then some ([], .word (c :: seen)) else endToken
  | .number seen => if isNumberChar c then some ([], .number (c :: seen)) else endToken
  | .string seen escape => inString? seen escape c

/-- The tokens of a text after those already found, which are kept backwards. -/
def scanFrom? (mode : Mode) (found : List Token) : List Char → Option (List Token)
  | [] => (finish? mode).map fun done => (done ++ found).reverse
  | c :: cs =>
    match scanChar? mode c with
    | none => none
    | some (done, mode) => scanFrom? mode (done ++ found) cs

def tokens? (cs : List Char) : Option (List Token) := scanFrom? .between [] cs

/-! ### Values -/

/-- A list or an object that is not closed yet. What it holds so far is kept backwards. -/
inductive Frame where
  | array (items : List Json)
  | object (fields : List (List Char × Json)) (key : List Char)

inductive Building where
  /-- A value; right after the opening of a list also its end. -/
  | value (canClose : Bool) (open_ : List Frame)
  /-- A key; right after the opening of an object also its end. -/
  | key (canClose : Bool) (fields : List (List Char × Json)) (open_ : List Frame)
  | colon (key : List Char) (fields : List (List Char × Json)) (open_ : List Frame)
  | next (value : Json) (open_ : List Frame)

def ofWord? (letters : List Char) : Option Json :=
  if letters = ['n', 'u', 'l', 'l'] then some .null
  else if letters = ['t', 'r', 'u', 'e'] then some (.bool true)
  else if letters = ['f', 'a', 'l', 's', 'e'] then some (.bool false)
  else none

def beginValue? (canClose : Bool) (open_ : List Frame) : Token → Option Building
  | .openArray => some (.value true (.array [] :: open_))
  | .openObject => some (.key true [] open_)
  | .closeArray =>
    match canClose, open_ with
    | true, .array items :: outer => some (.next (.array items.reverse) outer)
    | _, _ => none
  | .word letters => (ofWord? letters).map (.next · open_)
  | .number literal => some (.next (.number literal) open_)
  | .string body => some (.next (.string body) open_)
  | _ => none

def endValue? (value : Json) : List Frame → Token → Option Building
  | .array items :: outer, .comma => some (.value false (.array (value :: items) :: outer))
  | .array items :: outer, .closeArray => some (.next (.array (value :: items).reverse) outer)
  | .object fields key :: outer, .comma => some (.key false ((key, value) :: fields) outer)
  | .object fields key :: outer, .closeObject =>
    some (.next (.object ((key, value) :: fields).reverse) outer)
  | _, _ => none

def buildToken? : Building → Token → Option Building
  | .value canClose open_, token => beginValue? canClose open_ token
  | .key _ fields open_, .string body => some (.colon body fields open_)
  | .key true fields open_, .closeObject => some (.next (.object fields.reverse) open_)
  | .key _ _ _, _ => none
  | .colon key fields open_, .colon => some (.value false (.object fields key :: open_))
  | .colon _ _ _, _ => none
  | .next value open_, token => endValue? value open_ token

def buildFrom? (b : Building) : List Token → Option Building
  | [] => some b
  | token :: rest =>
    match buildToken? b token with
    | none => none
    | some b => buildFrom? b rest

def ofTokens? (ts : List Token) : Option Json :=
  match buildFrom? (.value false []) ts with
  | some (.next value []) => some value
  | _ => none

def read? (s : String) : Option Json := (tokens? s.toList).bind ofTokens?

end FermiQuiz.Json
