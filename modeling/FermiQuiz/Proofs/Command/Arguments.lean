import Mathlib
import FermiQuiz.Command.Basic
import FermiQuiz.Proofs.Json.Digits
import FermiQuiz.Proofs.Magnitude
import FermiQuiz.Proofs.Number.Numeral

/-!
# Arguments that name a game

A seed is read as it was printed. A positive number is never taken for an option, so that the line
which names a game by its seed is read as a guess at that game.
-/

namespace FermiQuiz

open Number (isDigit isPositive nearestDecimal naturalText readNat? takeSign digits)

/-! ### Seeds -/

namespace Number

/-- A natural number is read as it was written. -/
theorem readNat?_naturalText {n bound : ℕ} (less : n < bound) :
    readNat? bound (naturalText n) = some n := by
  have all : (digits n).all isDigit = true :=
    List.all_eq_true.mpr fun c member => Json.isDigit_of_mem_digits member
  have nonempty : (digits n).isEmpty = false := by
    rw [List.isEmpty_eq_false_iff]
    exact Nat.toDigits_ne_nil
  rw [readNat?, naturalText, String.toList_ofList]
  split
  · next cs plus =>
    have digit : isDigit '+' = true :=
      Json.isDigit_of_mem_digits (n := n) (plus ▸ List.mem_cons_self)
    exact absurd digit (by decide)
  · simp only [nonempty, all, Bool.not_true, Bool.or_self, Bool.false_eq_true, if_false,
      Json.ofDigits_digits, less, if_true]

theorem head_naturalText_ne_minus (n : ℕ) : (naturalText n).toList.head? ≠ some '-' := by
  intro minus
  rw [naturalText, String.toList_ofList] at minus
  have digit : isDigit '-' = true :=
    Json.isDigit_of_mem_digits (n := n) (List.mem_of_head? minus)
  exact absurd digit (by decide)

/-! ### Positive numbers -/

theorem not_isPositive_neg_nearestDecimal (n : ℕ) (e : ℤ) :
    isPositive (-nearestDecimal n e) = false := by
  by_contra positive
  obtain ⟨s, k, parts, -⟩ := isPositive_iff.mp (Bool.eq_true_of_not_eq_false positive)
  have finite : (nearestDecimal n e).isFinite = true := by
    rw [← isFinite_neg]
    exact isFinite_iff.mpr ⟨false, s, k, parts⟩
  have nearest := isNearest_nearestDecimal n e
  obtain ⟨s', k', -, -, parts', -⟩ :=
    nearest.exists_finite_of_lt (nearest.isFinite_iff.mp finite)
  rw [ofFloat_neg parts'] at parts
  cases parts

/-- A text that starts with a minus sign spells no positive number. -/
theorem head_ne_minus_of_read? {s : String} {x : Float} (read : read? s = some x)
    (positive : isPositive x = true) : s.toList.head? ≠ some '-' := by
  intro minus
  obtain ⟨cs, shape⟩ : ∃ cs, s.toList = '-' :: cs := by
    cases chars : s.toList with
    | nil =>
      rw [chars] at minus
      cases minus
    | cons c cs =>
      rw [chars] at minus
      cases minus
      exact ⟨cs, rfl⟩
  have sign : takeSign ('-' :: cs) = (true, cs) := rfl
  rw [read?, shape, readChars?, sign] at read
  obtain ⟨size, found, negated⟩ := Option.map_eq_some_iff.mp read
  rw [if_pos rfl] at negated
  have negative : isPositive (-size) = false := by
    split_ifs at found with infinite nothing
    · cases found
      decide +kernel
    · cases found
      decide +kernel
    · obtain ⟨⟨n, e⟩, -, rfl⟩ := Option.map_eq_some_iff.mp found
      exact not_isPositive_neg_nearestDecimal n e
  rw [← negated, negative] at positive
  cases positive

end Number

/-! ### The line that names a game -/

namespace Arguments

theorem kindOf_of_head {s : String} (h : s.toList.head? ≠ some '-') : kindOf s = .plain := by
  unfold kindOf
  split
  · next chars => simp [chars] at h
  · next chars => simp [chars] at h
  · rfl
  · next chars => simp [chars] at h
  · rfl

end Arguments

namespace Command

theorem seed?_naturalText (seed : UInt64) : seed? (naturalText seed.toNat) = some seed := by
  rw [seed?, count?, Number.readNat?_naturalText seed.toNat_lt, Option.map_some, Nat.toUInt64_eq,
    UInt64.ofNat_toNat]

/-- The arguments that guess at the game of a seed, as they are printed for players. -/
def guessArguments (number : String) (seed : UInt64) : List String :=
  ["guess", number, "--seed", naturalText seed.toNat]

/-- The shape of a guess. -/
def guessShape : Shape where
  options := "attempt" :: gameOptions
  flags := ["json"]
  operands := 1
  takesNegatives := true

theorem read?_guessArguments {number : String} {x : Float} (read : Number.read? number = some x)
    (positive : isPositive x = true) (seed : UInt64) :
    read? (guessArguments number seed) = some (.guess x 1 { occasion := .seed seed } false) := by
  have plain := Arguments.kindOf_of_head (Number.head_ne_minus_of_read? read positive)
  have plain' : Arguments.kindOf (naturalText seed.toNat) = .plain :=
    Arguments.kindOf_of_head (Number.head_naturalText_ne_minus _)
  have named : Arguments.kindOf "--seed" = .named "seed" none := rfl
  have arguments : Arguments.read? guessShape [number, "--seed", naturalText seed.toNat] =
      some { values := [("seed", naturalText seed.toNat)], operands := [number] } := by
    have added : Arguments.addNamed guessShape (Arguments.addPlain .any {} number) "seed" none =
        some (.value "seed", { operands := [number] }) := rfl
    simp only [Arguments.read?, Arguments.readFrom?, plain, named, plain', added]
    rfl
  have choice : gameChoice? { values := [("seed", naturalText seed.toNat)], operands := [number] } =
      some { occasion := .seed seed } := by
    have given : optional? seed? (some (naturalText seed.toNat)) = some (some seed) := by
      rw [optional?, seed?_naturalText, Option.map_some]
    have value : ({ values := [("seed", naturalText seed.toNat)], operands := [number] } :
        Arguments).value? "seed" = some (naturalText seed.toNat) := rfl
    rw [gameChoice?, value, given]
    rfl
  change ((Arguments.read? guessShape [number, "--seed", naturalText seed.toNat]).bind _) = _
  rw [arguments, Option.bind_some]
  change ((Number.read? number).bind _) = _
  rw [read, Option.bind_some]
  change ((gameChoice? _).bind _) = _
  rw [choice]
  rfl

end Command

end FermiQuiz
