import Mathlib
import FermiQuiz.Number.Text
import FermiQuiz.Proofs.Json.Digits

/-!
# Numbers with a fixed number of decimals

`IsFixed places text v` says that a text spells `v` as digits with exactly `places` decimals, and no
sign or exponent. That is what `withPlaces` and, for a double that is not negative, `fixedText`
write, and the number so spelled is the double rounded to its last decimal.
-/

namespace FermiQuiz.Number

open Json (IsRun isWhole isRun_digits ofDigits_append ofDigits_zeros ofDigits_digits
  isDigit_of_mem_digits isDigit_of_mem_zeros)

/-- A whole number in digits, and after a point exactly `places` decimals; no point without
decimals. Together the digits make the number `v * 10 ^ places`. -/
def IsFixed (places : ℕ) (text : List Char) (v : ℚ) : Prop :=
  ∃ whole fraction, isWhole whole = true ∧ (∀ c ∈ whole ++ fraction, isDigit c = true) ∧
    fraction.length = places ∧ text = whole ++ (if places = 0 then [] else '.' :: fraction) ∧
    v = ofDigits (whole ++ fraction) / 10 ^ places

/-! ### Where the point goes -/

/-- The digits of a number with so many zeros in front that one stands before the point. -/
def padded (n places : ℕ) : List Char :=
  List.replicate (places + 1 - (digits n).length) '0' ++ digits n

theorem lt_length_padded (n places : ℕ) : places < (padded n places).length := by
  rw [padded, List.length_append, List.length_replicate]
  omega

theorem isDigit_of_mem_padded {n places : ℕ} {c : Char} (h : c ∈ padded n places) :
    isDigit c = true := by
  rcases List.mem_append.mp h with zero | digit
  · exact isDigit_of_mem_zeros _ c zero
  · exact isDigit_of_mem_digits digit

theorem ofDigits_padded (n places : ℕ) : ofDigits (padded n places) = n := by
  rw [padded, ofDigits_append, ofDigits_zeros, mul_zero, zero_add, ofDigits_digits]

theorem isWhole_take {ds : List Char} (run : IsRun ds) {k : ℕ} (positive : 0 < k) :
    isWhole (ds.take k) = true := by
  obtain ⟨c, cs, rfl, nonzero⟩ := run.first
  obtain ⟨j, rfl⟩ := Nat.exists_eq_add_one.mpr positive
  have begins : (c :: cs).take (j + 1) = c :: cs.take j := List.take_succ_cons
  rw [begins]
  exact IsRun.isWhole ⟨fun d member => run.all d (List.mem_of_mem_take (begins ▸ member)), c, _,
    rfl, nonzero⟩

theorem isWhole_take_padded (n places : ℕ) :
    isWhole ((padded n places).take ((padded n places).length - places)) = true := by
  rcases Nat.lt_or_ge places (digits n).length with long | short
  · have none : places + 1 - (digits n).length = 0 := by omega
    rw [padded, none, List.replicate_zero, List.nil_append]
    rcases Nat.eq_zero_or_pos n with rfl | positive
    · have only : (digits 0).length = 1 := rfl
      rw [only, show places = 0 by omega]
      rfl
    · exact isWhole_take (isRun_digits positive) (by omega)
  · have count : (padded n places).length - places = 1 := by
      rw [padded, List.length_append, List.length_replicate]
      omega
    have zeros : places + 1 - (digits n).length = places - (digits n).length + 1 := by omega
    rw [count, padded, zeros, List.replicate_succ]
    rfl

theorem isFixed_withPlaces (n places : ℕ) :
    IsFixed places (withPlaces n places) (n / 10 ^ places) := by
  have long := lt_length_padded n places
  have parts := List.take_append_drop ((padded n places).length - places) (padded n places)
  refine ⟨(padded n places).take ((padded n places).length - places),
    (padded n places).drop ((padded n places).length - places), isWhole_take_padded n places,
    ?_, ?_, ?_, ?_⟩
  · rw [parts]
    exact fun c member => isDigit_of_mem_padded member
  · rw [List.length_drop]
    omega
  · change (if places = 0 then _ else _) = _
    split
    · rw [List.append_nil]
      rfl
    · rfl
  · rw [parts, ofDigits_padded]

/-! ### Doubles -/

/-- A double that is not negative is written with the decimals of the nearest number that has no
more than them. -/
theorem exists_isFixed_fixedText {x : Float} {s : ℕ} {e : ℤ}
    (parts : Parts.ofFloat x = .finite false s e) (places : ℕ) :
    ∃ n : ℕ, IsFixed places (fixedText places x).toList (n / 10 ^ places) ∧
      IsRoundEven n (value x * 10 ^ places) := by
  refine ⟨roundEven (numerator s e * Nat.pow 10 places) (denominator e), ?_, ?_⟩
  · rw [fixedText, signed, parts, String.toList_ofList]
    exact isFixed_withPlaces _ places
  · have rounded := roundEven_isRoundEven (numerator s e * Nat.pow 10 places)
      (denominator_pos e)
    rwa [Nat.cast_mul, mul_div_right_comm, numerator_div_denominator, ← value_eq parts,
      Nat.pow_eq, Nat.cast_pow, Nat.cast_ofNat] at rounded

end FermiQuiz.Number
