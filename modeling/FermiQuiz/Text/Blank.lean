import FermiQuiz.Text.Ranges

/-!
# Blanks

A blank is a character with the Unicode property `White_Space`. `trim` removes the blanks at
both ends of a text, `wordCount` counts the runs of other characters, and `splitAt` cuts a text
at each occurrence of one character.
-/

namespace FermiQuiz.Text

/-- The characters with the property `White_Space`. -/
def blankRanges : Ranges :=
  [(0x9, 0xD), (0x20, 0x20), (0x85, 0x85), (0xA0, 0xA0), (0x1680, 0x1680), (0x2000, 0x200A),
    (0x2028, 0x2029), (0x202F, 0x202F), (0x205F, 0x205F), (0x3000, 0x3000)]

def isBlank (c : Char) : Bool := blankRanges.contains c

def trimStart (cs : List Char) : List Char := cs.dropWhile isBlank

def trimEnd (cs : List Char) : List Char := (trimStart cs.reverse).reverse

def trimChars (cs : List Char) : List Char := trimEnd (trimStart cs)

def trim (s : String) : String := String.ofList (trimChars s.toList)

def isAllBlank (s : String) : Bool := s.toList.all isBlank

/-- The number of words in a text, a word being a run of characters that are not blank.
`within` says that the text starts inside a word, which is then not counted. -/
def wordsFrom (within : Bool) : List Char → Nat
  | [] => 0
  | c :: cs =>
    if isBlank c then wordsFrom false cs
    else if within then wordsFrom true cs
    else wordsFrom true cs + 1

def wordCount (s : String) : Nat := wordsFrom false s.toList

/-- The pieces of a text between the occurrences of `separator`; the empty text is one piece. -/
def splitAt (separator : Char) : List Char → List (List Char)
  | [] => [[]]
  | c :: cs =>
    if c = separator then [] :: splitAt separator cs
    else match splitAt separator cs with
      | [] => [[c]]
      | piece :: pieces => (c :: piece) :: pieces

end FermiQuiz.Text
