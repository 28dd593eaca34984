import Mathlib
import FermiQuiz.Proofs.Json.Precision

/-!
# Numbers that are read back

The shortest digits of a double are read as that double, whether they are written with zeros up to
the point, as players see them, or as in documents.
-/

namespace FermiQuiz.Number

open Json (Denotes IsRun Literal placed signedText sizeText unsignedParts? unsignedParts?_whole)

/-- A text spells a number in digits, with a minus sign before it or without. -/
def Spells (cs : List Char) (q : ℚ) : Prop :=
  ∀ negative, ∃ l : Literal, unsignedParts? negative cs = some l ∧ l.negative = negative ∧
    (l.coefficient * 10 ^ l.scale : ℚ) = q

theorem spells_of_denotes {cs : List Char} {q : ℚ} (h : Denotes cs q) : Spells cs q := by
  intro negative
  obtain ⟨l, parts, stands⟩ := h negative
  exact ⟨l, parts, stands.sign, stands.value⟩

/-- A whole number without a point: zeros up to where it would be. -/
theorem spells_whole {ds : List Char} {top : ℤ} (run : IsRun ds)
    (few : ds.length ≤ top.toNat + 1) (nonneg : 0 ≤ top) :
    Spells (ds ++ List.replicate (top.toNat + 1 - ds.length) '0') (placed ds top) := by
  have filled := run.append (Json.isDigit_of_mem_zeros (top.toNat + 1 - ds.length))
  have no_exponent : Json.exponent? [] = some none := rfl
  intro negative
  have parts := unsignedParts?_whole negative filled.isWhole filled.all no_exponent
  rw [List.append_nil] at parts
  refine ⟨_, parts, rfl, ?_⟩
  rw [Literal.coefficient, Literal.scale, List.append_nil, Json.ofDigits_append,
    Json.ofDigits_zeros, List.length_replicate, add_zero, placed, Json.exponentValue,
    List.length_nil, Nat.cast_mul, mul_comm (Nat.cast _) (Nat.cast _), mul_assoc, Nat.cast_pow,
    Nat.cast_ofNat, ← zpow_natCast, ← zpow_add₀ (by norm_num)]
  congr 2
  omega

theorem spells_positional {ds : List Char} (run : IsRun ds) (short : ds.length ≤ 18) (top : ℤ) :
    Spells (positional ds top) (placed ds top) := by
  unfold positional
  by_cases negative : top < 0
  · rw [if_pos negative]
    exact spells_of_denotes (Json.denotes_small run short negative)
  · rw [if_neg negative]
    by_cases few : ds.length ≤ top.toNat + 1
    · simp only [if_pos few, List.take_of_length_le few]
      exact spells_whole run few (by omega)
    · have none : top.toNat + 1 - ds.length = 0 := by omega
      simp only [if_neg few, none, List.replicate_zero, List.append_nil]
      exact spells_of_denotes (Json.denotes_split run short (by omega) (by omega))

/-! ### Reading -/

variable {x : Float} {negative : Bool} {s : ℕ} {e : ℤ}

theorem readChars?_of_spells (tie : Tie) (parts : Parts.ofFloat x = .finite negative s e)
    {cs : List Char} (spelled : Spells cs (if s = 0 then 0 else (shortest tie s e).value)) :
    readChars? (signedText negative cs) = some x := by
  obtain ⟨l, unsigned, sign, value⟩ := spelled negative
  have nearest := isNearest_nearestDecimal l.coefficient l.scale
  rw [value] at nearest
  have size := Json.parts_of_isNearest_shortest tie (canonical_of_finite parts)
    (exponent_le_of_finite parts) nearest
  rw [Json.readChars?_of_parts? (Json.parts?_of_unsigned unsigned), Literal.nearest, sign]
  congr 1
  cases negative with
  | false => exact Json.eq_of_parts_eq size parts
  | true => exact Json.eq_of_parts_eq (ofFloat_neg size) parts

/-- A finite double is read from its shortest digits as it was. -/
theorem read?_plainText (finite : x.isFinite = true) : read? (plainText x) = some x := by
  obtain ⟨negative, s, e, parts⟩ := isFinite_iff.mp finite
  have text : (plainText x).toList = signedText negative
      (positional (shortestDigits .up s e).1 (shortestDigits .up s e).2) := by
    rw [plainText, signed, parts, String.toList_ofList, signedText]
    cases negative <;> rfl
  rw [read?, text]
  refine readChars?_of_spells .up parts ?_
  by_cases zero : s = 0
  · rw [shortestDigits, if_pos zero, if_pos zero]
    intro negative
    have zero : unsignedParts? negative ['0'] = some ⟨negative, ['0'], [], none⟩ := rfl
    exact ⟨_, zero, rfl, by simp [Literal.coefficient, ofDigits]⟩
  · obtain ⟨run, short, value⟩ := Json.significant_shortest .up (canonical_of_finite parts)
      (Nat.pos_of_ne_zero zero)
    rw [shortestDigits, if_neg zero, if_neg zero, ← value]
    exact spells_positional run short _

/-- A finite double is read from its literal in a document as it was. -/
theorem exists_literal (finite : x.isFinite = true) :
    ∃ cs, Json.ofFloat x = .number cs ∧ readChars? cs = some x := by
  obtain ⟨negative, s, e, parts⟩ := isFinite_iff.mp finite
  refine ⟨_, Json.ofFloat_of_finite parts, readChars?_of_spells .even parts ?_⟩
  exact spells_of_denotes
    (Json.denotes_sizeText (canonical_of_finite parts) (exponent_le_of_finite parts))

end FermiQuiz.Number
