import Mathlib
import FermiQuiz.Json.Text

/-!
# Spelled texts

Every text is read back from its spelling between quotes.
-/

namespace FermiQuiz.Json

/-- The characters below a blank are spelled by their number. -/
theorem hex4?_digitChar : ∀ n < 32,
    hex4? '0' '0' (Nat.digitChar (n / 16)) (Nat.digitChar (n % 16)) = some n := by
  decide

theorem unescape?_plain {c e : Char} (meaning : plainEscape? c = some e) (other : c ≠ 'u')
    (rest : List Char) :
    unescape? ('\\' :: c :: rest) = (unescape? rest).map (e :: ·) := by
  rw [unescape?.eq_def]
  split
  · next nothing => cases nothing
  · next same =>
    cases same
    exact absurd rfl other
  · next same =>
    cases same
    rw [meaning]
  · next unlike same =>
    cases same
    exact (unlike _ _ rfl rfl).elim

theorem unescape?_self {c : Char} (other : c ≠ '\\') (rest : List Char) :
    unescape? (c :: rest) = (unescape? rest).map (c :: ·) := by
  rw [unescape?.eq_def]
  split
  · next nothing => cases nothing
  · next same =>
    cases same
    exact absurd rfl other
  · next same =>
    cases same
    exact absurd rfl other
  · next same =>
    cases same
    rw [if_neg other]

theorem unescape?_numbered {n : ℕ} (small : n < 32) (rest : List Char) :
    unescape? ('\\' :: 'u' :: '0' :: '0' :: Nat.digitChar (n / 16) :: Nat.digitChar (n % 16) ::
      rest) = (unescape? rest).map (Char.ofNat n :: ·) := by
  rw [unescape?, hex4?_digitChar n small]
  have low : (decide (0xD800 ≤ n) && decide (n < 0xDC00)) = false := by simp; omega
  have high : (decide (0xDC00 ≤ n) && decide (n < 0xE000)) = false := by simp; omega
  simp only [low, high, Bool.false_eq_true, if_false]

theorem unescape?_escapeChar (c : Char) (rest : List Char) :
    unescape? (escapeChar c ++ rest) = (unescape? rest).map (c :: ·) := by
  have eight (h : c.toNat = 8) : plainEscape? 'b' = some c := by
    rw [← Char.ofNat_toNat c, h]
    rfl
  have twelve (h : c.toNat = 12) : plainEscape? 'f' = some c := by
    rw [← Char.ofNat_toNat c, h]
    rfl
  unfold escapeChar
  split_ifs with quote slash line return_ tab back feed small
  · exact unescape?_plain (by rw [quote]; rfl) (by decide) rest
  · exact unescape?_plain (by rw [slash]; rfl) (by decide) rest
  · exact unescape?_plain (by rw [line]; rfl) (by decide) rest
  · exact unescape?_plain (by rw [return_]; rfl) (by decide) rest
  · exact unescape?_plain (by rw [tab]; rfl) (by decide) rest
  · exact unescape?_plain (eight back) (by decide) rest
  · exact unescape?_plain (twelve feed) (by decide) rest
  · have numbered := unescape?_numbered small rest
    rwa [Char.ofNat_toNat] at numbered
  · exact unescape?_self slash rest

theorem unescape?_escape (cs : List Char) : unescape? (escape cs) = some cs := by
  induction cs with
  | nil => rfl
  | cons c cs ih =>
    rw [escape, List.flatMap_cons, unescape?_escapeChar]
    change (unescape? (escape cs)).map (c :: ·) = _
    rw [ih, Option.map_some]

@[simp] theorem text?_ofText (s : String) : text? (ofText s) = some s := by
  rw [ofText, text?, unescape?_escape, Option.map_some, String.ofList_toList]

end FermiQuiz.Json
