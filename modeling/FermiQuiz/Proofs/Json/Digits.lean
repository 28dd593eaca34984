import Mathlib
import FermiQuiz.Proofs.Json.Literal
import FermiQuiz.Proofs.Number.Shortest

/-!
# Written literals

The text that is written for the digits of a number is a literal which stands for that number,
whether it has an exponent or not. So the literal of a double stands for its shortest decimal.
-/

namespace FermiQuiz.Json

open Number

/-! ### Runs of digits -/

theorem ofDigits_append (xs ys : List Char) :
    ofDigits (xs ++ ys) = 10 ^ ys.length * ofDigits xs + ofDigits ys :=
  (Nat.ofDigitChars_append 0).trans Nat.ofDigitChars_eq_ofDigitChars_zero

theorem ofDigits_zeros (n : ℕ) : ofDigits (List.replicate n '0') = 0 :=
  Nat.ofDigitChars_replicate_zero.trans (mul_zero _)

theorem ofDigits_digits (n : ℕ) : ofDigits (digits n) = n :=
  Nat.ofDigitChars_toDigits (by norm_num) le_rfl

theorem isDigit_of_mem_digits {n : ℕ} {c : Char} (h : c ∈ digits n) : isDigit c = true := by
  have decimal := Nat.isDigit_of_mem_toDigits (by norm_num) le_rfl h
  rw [Char.isDigit, Bool.and_eq_true, decide_eq_true_eq, decide_eq_true_eq] at decimal
  rw [isDigit, Bool.and_eq_true, decide_eq_true_eq, decide_eq_true_eq]
  exact decimal

theorem isDigit_of_mem_zeros (n : ℕ) : ∀ c ∈ List.replicate n '0', isDigit c = true := by
  intro c member
  rw [List.eq_of_mem_replicate member]
  rfl

theorem ofDigits_lt {ds : List Char} (all : ∀ c ∈ ds, isDigit c = true) :
    ofDigits ds < 10 ^ ds.length := by
  induction ds with
  | nil => exact Nat.one_pos
  | cons c cs ih =>
    have rest := ih fun d member => all d (List.mem_cons_of_mem c member)
    have bounds := isDigit_iff.mp (all c List.mem_cons_self)
    have first : ofDigits [c] ≤ 9 := by
      change 10 * 0 + (c.toNat - 48) ≤ 9
      omega
    calc ofDigits (c :: cs) = 10 ^ cs.length * ofDigits [c] + ofDigits cs := ofDigits_append [c] cs
      _ < 10 ^ cs.length * 9 + 10 ^ cs.length :=
        Nat.add_lt_add_of_le_of_lt (Nat.mul_le_mul_left _ first) rest
      _ = 10 ^ (c :: cs).length := by rw [List.length_cons]; ring

/-- Digits that may stand before a point: the first is not zero. -/
structure IsRun (ds : List Char) : Prop where
  all : ∀ c ∈ ds, isDigit c = true
  first : ∃ c cs, ds = c :: cs ∧ c ≠ '0'

theorem IsRun.append {ds es : List Char} (run : IsRun ds) (all : ∀ c ∈ es, isDigit c = true) :
    IsRun (ds ++ es) := by
  obtain ⟨c, cs, rfl, nonzero⟩ := run.first
  refine ⟨fun d member => ?_, c, cs ++ es, rfl, nonzero⟩
  rcases List.mem_append.mp member with member | member
  · exact run.all d member
  · exact all d member

theorem IsRun.isWhole {ds : List Char} (run : IsRun ds) : isWhole ds = true := by
  obtain ⟨c, cs, rfl, nonzero⟩ := run.first
  unfold Json.isWhole
  split
  · next nothing => cases nothing
  · rfl
  · next same =>
    cases same
    exact bne_iff_ne.mpr nonzero

/-! ### Literals -/

theorem span_append {p : Char → Bool} {cs rest : List Char} (all : ∀ c ∈ cs, p c = true)
    (ends : ∀ c ∈ rest.head?, p c = false) :
    (cs ++ rest).takeWhile p = cs ∧ (cs ++ rest).dropWhile p = rest := by
  rw [List.takeWhile_append_of_pos all, List.dropWhile_append_of_pos all]
  cases rest with
  | nil => exact ⟨List.append_nil cs, rfl⟩
  | cons c rest =>
    have stop : ¬ p c = true := by simp [ends c rfl]
    rw [List.takeWhile_cons_of_neg stop, List.dropWhile_cons_of_neg stop, List.append_nil]
    exact ⟨rfl, rfl⟩

theorem head_of_exponent? {tail : List Char} {x : Option (Bool × List Char)}
    (h : exponent? tail = some x) : ∀ c ∈ tail.head?, isDigit c = false ∧ c ≠ '.' := by
  intro c first
  cases tail with
  | nil => cases first
  | cons d cs =>
    cases first
    rw [exponent?_cons] at h
    split at h
    · next mark =>
      rw [Bool.or_eq_true, decide_eq_true_eq, decide_eq_true_eq] at mark
      rcases mark with rfl | rfl
      · exact ⟨rfl, by decide⟩
      · exact ⟨rfl, by decide⟩
    · cases h

section

variable (negative : Bool) {whole fraction tail : List Char} {x : Option (Bool × List Char)}

theorem unsignedParts?_pointed (proper : isWhole whole = true)
    (all : ∀ c ∈ whole, isDigit c = true) (nonempty : fraction ≠ [])
    (all' : ∀ c ∈ fraction, isDigit c = true) (exponent : exponent? tail = some x) :
    unsignedParts? negative (whole ++ '.' :: (fraction ++ tail)) =
      some ⟨negative, whole, fraction, x⟩ := by
  have point : ∀ c ∈ ('.' :: (fraction ++ tail)).head?, isDigit c = false := by
    intro c first
    cases first
    rfl
  obtain ⟨taken, dropped⟩ := span_append all point
  obtain ⟨taken', dropped'⟩ :=
    span_append all' fun c first => (head_of_exponent? exponent c first).1
  have filled : fraction.isEmpty = false := List.isEmpty_eq_false_iff.mpr nonempty
  unfold unsignedParts?
  rw [taken, dropped, proper]
  simp only [taken', dropped', filled, exponent]
  rfl

theorem unsignedParts?_whole (proper : isWhole whole = true)
    (all : ∀ c ∈ whole, isDigit c = true) (exponent : exponent? tail = some x) :
    unsignedParts? negative (whole ++ tail) = some ⟨negative, whole, [], x⟩ := by
  have head := head_of_exponent? exponent
  obtain ⟨taken, dropped⟩ := span_append all fun c first => (head c first).1
  unfold unsignedParts?
  rw [taken, dropped, proper]
  simp only [Bool.not_true, Bool.false_eq_true, if_false]
  split
  · exact absurd rfl (head '.' rfl).2
  · rw [exponent]
    rfl

end

/-- `l` stands for `q` under its sign, with digits that fit and an exponent in range. -/
structure Literal.StandsFor (l : Literal) (negative : Bool) (q : ℚ) : Prop where
  sign : l.negative = negative
  value : (l.coefficient * 10 ^ l.scale : ℚ) = q
  digits : l.coefficient < 10 ^ 18
  exponent : ∀ e ∈ l.exponent, ofDigits e.2 ≤ exponentLimit

/-- A text is a literal for `q`, with a minus sign before it or without. -/
def Denotes (cs : List Char) (q : ℚ) : Prop :=
  ∀ negative, ∃ l, unsignedParts? negative cs = some l ∧ l.StandsFor negative q

theorem denotes_pointed {whole fraction tail : List Char} {x : Option (Bool × List Char)} {q : ℚ}
    (proper : isWhole whole = true) (all : ∀ c ∈ whole, isDigit c = true) (nonempty : fraction ≠ [])
    (all' : ∀ c ∈ fraction, isDigit c = true) (exponent : exponent? tail = some x)
    (value : (ofDigits (whole ++ fraction) * 10 ^ (exponentValue x - fraction.length) : ℚ) = q)
    (digits : ofDigits (whole ++ fraction) < 10 ^ 18)
    (near : ∀ e ∈ x, ofDigits e.2 ≤ exponentLimit) :
    Denotes (whole ++ '.' :: (fraction ++ tail)) q := fun negative =>
  ⟨_, unsignedParts?_pointed negative proper all nonempty all' exponent, rfl, value, digits, near⟩

/-! ### The literal of a run of digits -/

/-- The number of the digits `d₁.d₂… * 10 ^ top`. -/
def placed (ds : List Char) (top : ℤ) : ℚ := ofDigits ds * 10 ^ (top - ds.length + 1)

section

variable {ds : List Char} {top : ℤ}

theorem IsRun.length_pos (run : IsRun ds) : 0 < ds.length := by
  obtain ⟨c, cs, rfl, -⟩ := run.first
  exact Nat.succ_pos _

/-- A number below one: zeros after the point. -/
theorem denotes_small (run : IsRun ds) (short : ds.length ≤ 18) (negative : top < 0) :
    Denotes ('0' :: '.' :: (List.replicate ((-top).toNat - 1) '0' ++ ds)) (placed ds top) := by
  have coefficient : ofDigits (['0'] ++ (List.replicate ((-top).toNat - 1) '0' ++ ds)) =
      ofDigits ds := by
    have zeros := ofDigits_zeros ((-top).toNat - 1 + 1)
    rw [List.replicate_succ] at zeros
    rw [← List.append_assoc, ofDigits_append]
    change 10 ^ ds.length * ofDigits ('0' :: List.replicate ((-top).toNat - 1) '0') + _ = _
    rw [zeros, mul_zero, zero_add]
  have text : '0' :: '.' :: (List.replicate ((-top).toNat - 1) '0' ++ ds) =
      ['0'] ++ '.' :: ((List.replicate ((-top).toNat - 1) '0' ++ ds) ++ []) := by
    rw [List.append_nil]
    rfl
  have zero : ∀ c ∈ ['0'], isDigit c = true := List.forall_mem_singleton.mpr rfl
  rw [text]
  refine denotes_pointed rfl zero ?_ ?_ rfl ?_ ?_ (by simp)
  · intro none
    have positive := run.length_pos
    rw [(List.append_eq_nil_iff.mp none).2] at positive
    exact positive.false
  · intro c member
    rcases List.mem_append.mp member with member | member
    · exact isDigit_of_mem_zeros _ c member
    · exact run.all c member
  · rw [coefficient, placed, exponentValue, List.length_append, List.length_replicate]
    congr 2
    omega
  · rw [coefficient]
    exact (ofDigits_lt run.all).trans_le (Nat.pow_le_pow_right (by norm_num) short)

/-- A whole number: zeros up to the point, and one after it. -/
theorem denotes_whole (run : IsRun ds) (few : ds.length ≤ top.toNat + 1) (nonneg : 0 ≤ top)
    (small : top ≤ 15) :
    Denotes (ds ++ List.replicate (top.toNat + 1 - ds.length) '0' ++ ['.', '0'])
      (placed ds top) := by
  have filled := run.append (isDigit_of_mem_zeros (top.toNat + 1 - ds.length))
  have coefficient : ofDigits (ds ++ List.replicate (top.toNat + 1 - ds.length) '0' ++ ['0']) =
      10 ^ (top.toNat + 1 - ds.length + 1) * ofDigits ds := by
    rw [List.append_assoc, ← List.replicate_succ', ofDigits_append, ofDigits_zeros,
      List.length_replicate, add_zero]
  have zero : ∀ c ∈ ['0'], isDigit c = true := List.forall_mem_singleton.mpr rfl
  change Denotes (_ ++ '.' :: (['0'] ++ [])) _
  refine denotes_pointed filled.isWhole filled.all (by simp) zero rfl ?_ ?_ (by simp)
  · rw [coefficient, placed, exponentValue, Nat.cast_mul, mul_comm (Nat.cast _) (Nat.cast _),
      mul_assoc]
    congr 1
    rw [Nat.cast_pow, Nat.cast_ofNat, ← zpow_natCast, ← zpow_add₀ (by norm_num),
      List.length_singleton]
    congr 1
    omega
  · rw [coefficient]
    calc 10 ^ (top.toNat + 1 - ds.length + 1) * ofDigits ds
        < 10 ^ (top.toNat + 1 - ds.length + 1) * 10 ^ ds.length :=
          Nat.mul_lt_mul_of_pos_left (ofDigits_lt run.all) (Nat.pow_pos (by norm_num))
      _ = 10 ^ (top.toNat + 1 - ds.length + 1 + ds.length) := (pow_add ..).symm
      _ ≤ 10 ^ 18 := Nat.pow_le_pow_right (by norm_num) (by omega)

/-- A number with its point among the digits. -/
theorem denotes_split (run : IsRun ds) (short : ds.length ≤ 18) (many : top.toNat + 1 < ds.length)
    (nonneg : 0 ≤ top) :
    Denotes (ds.take (top.toNat + 1) ++ '.' :: ds.drop (top.toNat + 1)) (placed ds top) := by
  obtain ⟨c, cs, rfl, nonzero⟩ := run.first
  have front : IsRun ((c :: cs).take (top.toNat + 1)) :=
    ⟨fun d member => run.all d (List.mem_of_mem_take member), c, _, rfl, nonzero⟩
  rw [← List.append_nil ((c :: cs).drop _)]
  refine denotes_pointed front.isWhole front.all ?_
    (fun d member => run.all d (List.mem_of_mem_drop member)) rfl ?_ ?_ (by simp)
  · intro none
    rw [List.drop_eq_nil_iff] at none
    omega
  · rw [List.take_append_drop, placed, exponentValue, List.length_drop]
    congr 2
    omega
  · rw [List.take_append_drop]
    exact (ofDigits_lt run.all).trans_le (Nat.pow_le_pow_right (by norm_num) short)

def exponentTail (top : ℤ) : List Char :=
  'e' :: (if top < 0 then integerText top else '+' :: integerText top)

theorem exponent?_exponentTail (top : ℤ) :
    exponent? (exponentTail top) = some (some (decide (top < 0), digits top.natAbs)) := by
  have signed : takeSign (if top < 0 then integerText top else '+' :: integerText top) =
      (decide (top < 0), digits top.natAbs) := by
    unfold integerText
    split
    · next negative => rw [decide_eq_true negative]; rfl
    · next nonneg => rw [decide_eq_false nonneg]; rfl
  have some_digit : (digits top.natAbs).isEmpty = false :=
    List.isEmpty_eq_false_iff.mpr (List.length_pos_iff.mp (digitCount_pos _))
  have all : (digits top.natAbs).all isDigit = true :=
    List.all_eq_true.mpr fun c member => isDigit_of_mem_digits member
  rw [exponentTail, exponent?_cons, signed, some_digit, all]
  rfl

theorem exponentValue_exponentTail (top : ℤ) :
    exponentValue (some (decide (top < 0), digits top.natAbs)) = top := by
  rw [exponentValue, ofDigits_digits]
  split
  · next negative =>
    rw [decide_eq_true_eq] at negative
    omega
  · next nonneg =>
    rw [decide_eq_true_eq] at nonneg
    omega

theorem denotes_exponent (run : IsRun ds) (short : ds.length ≤ 18)
    (near : top.natAbs ≤ exponentLimit) :
    Denotes (pointed ds ++ exponentTail top) (placed ds top) := by
  have written := exponent?_exponentTail top
  have exponent := exponentValue_exponentTail top
  have digits := (ofDigits_lt run.all).trans_le (Nat.pow_le_pow_right (by norm_num) short)
  have near' : ∀ e ∈ some (decide (top < 0), Number.digits top.natAbs),
      ofDigits e.2 ≤ exponentLimit := by
    rintro e ⟨⟩
    rwa [ofDigits_digits]
  obtain ⟨c, cs, rfl, nonzero⟩ := run.first
  have front : IsRun [c] := ⟨by simpa using run.all c List.mem_cons_self, c, [], rfl, nonzero⟩
  cases cs with
  | nil =>
    intro negative
    change ∃ l, unsignedParts? negative ([c] ++ exponentTail top) = some l ∧ _
    refine ⟨_, unsignedParts?_whole negative front.isWhole front.all written, rfl, ?_, digits,
      near'⟩
    rw [Literal.coefficient, Literal.scale, exponent, placed, List.append_nil]
    simp
  | cons d ds =>
    change Denotes ([c] ++ '.' :: ((d :: ds) ++ exponentTail top)) _
    refine denotes_pointed front.isWhole front.all (by simp)
      (fun e member => run.all e (List.mem_cons_of_mem c member)) written ?_ digits near'
    rw [exponent, placed]
    congr 2
    simp only [List.length_cons]
    push_cast
    ring

theorem denotes_literal (run : IsRun ds) (short : ds.length ≤ 18)
    (near : top.natAbs ≤ exponentLimit) : Denotes (literal ds top) (placed ds top) := by
  unfold literal
  by_cases middle : (decide (-5 ≤ top) && decide (top ≤ 15)) = true
  · rw [if_pos middle]
    rw [Bool.and_eq_true, decide_eq_true_eq, decide_eq_true_eq] at middle
    unfold positional
    by_cases negative : top < 0
    · simp only [if_pos negative]
      rw [if_pos (by simp)]
      exact denotes_small run short negative
    · simp only [if_neg negative]
      by_cases few : ds.length ≤ top.toNat + 1
      · simp only [if_pos few, List.take_of_length_le few]
        rw [if_neg]
        · exact denotes_whole run few (by omega) middle.2
        · have filled := run.append (isDigit_of_mem_zeros (top.toNat + 1 - ds.length))
          rw [List.contains_iff_mem]
          intro point
          exact absurd (filled.all '.' point) (by decide)
      · have none : top.toNat + 1 - ds.length = 0 := by omega
        simp only [if_neg few, none, List.replicate_zero, List.append_nil]
        rw [if_pos (by simp)]
        exact denotes_split run short (by omega) (by omega)
  · rw [if_neg middle]
    exact denotes_exponent run short near

end

/-! ### The literal of a double -/

theorem isRun_digits {n : ℕ} (positive : 0 < n) : IsRun (digits n) := by
  refine ⟨fun c member => isDigit_of_mem_digits member, ?_⟩
  have number := ofDigits_digits n
  have least := pow_digitCount_le positive
  -- With a zero in front there would be too few digits for the number.
  cases written : digits n with
  | nil => exact absurd written Nat.toDigits_ne_nil
  | cons c cs =>
    refine ⟨c, cs, rfl, ?_⟩
    rintro rfl
    have rest : ofDigits cs < 10 ^ cs.length := ofDigits_lt fun c member =>
      isDigit_of_mem_digits (n := n) (written ▸ List.mem_cons_of_mem _ member)
    have front : ofDigits ('0' :: cs) = ofDigits cs := rfl
    rw [digitCount, written, List.length_cons, Nat.add_sub_cancel] at least
    rw [written, front] at number
    omega

theorem digits_eq_significant {d : Decimal} (positive : 0 < d.coefficient) :
    d.significant ≠ [] ∧
      ∃ n, digits d.coefficient = d.significant ++ List.replicate n '0' := by
  have parts := List.rdropWhile_append_rtakeWhile (p := (· == '0')) (l := digits d.coefficient)
  have zeros : (digits d.coefficient).rtakeWhile (· == '0') =
      List.replicate ((digits d.coefficient).rtakeWhile (· == '0')).length '0' :=
    List.eq_replicate_of_mem fun c member => by simpa using List.mem_rtakeWhile_imp member
  have front : (digits d.coefficient).rdropWhile (· == '0') ≠ [] := by
    intro none
    rw [none, List.nil_append] at parts
    have zero := ofDigits_digits d.coefficient
    rw [← parts, zeros, ofDigits_zeros] at zero
    exact positive.ne zero
  have same : d.significant = (digits d.coefficient).rdropWhile (· == '0') := by
    unfold Decimal.significant
    split
    · next none => exact absurd none front
    · rfl
  rw [same]
  exact ⟨front, _, by rw [← zeros, parts]⟩

theorem significant_spec {d : Decimal} (positive : 0 < d.coefficient) :
    IsRun d.significant ∧ d.significant.length ≤ digitCount d.coefficient ∧
      placed d.significant d.exponent = d.value := by
  obtain ⟨nonempty, n, same⟩ := digits_eq_significant positive
  have all : ∀ c ∈ d.significant, isDigit c = true := fun c member =>
    isDigit_of_mem_digits (same ▸ List.mem_append_left _ member)
  have count : digitCount d.coefficient = d.significant.length + n := by
    rw [digitCount, same, List.length_append, List.length_replicate]
  have number : d.coefficient = 10 ^ n * ofDigits d.significant := by
    have spelled := ofDigits_digits d.coefficient
    rw [same, ofDigits_append, ofDigits_zeros, List.length_replicate, add_zero] at spelled
    exact spelled.symm
  refine ⟨⟨all, ?_⟩, by omega, ?_⟩
  · obtain ⟨c, cs, first, nonzero⟩ := (isRun_digits positive).first
    cases written : d.significant with
    | nil => exact absurd written nonempty
    | cons c' cs' =>
      rw [same, written] at first
      cases first
      exact ⟨_, _, rfl, nonzero⟩
  · rw [placed, Decimal.exponent, count, Decimal.value, number]
    push_cast
    rw [mul_comm ((10 : ℚ) ^ n), mul_assoc, ← zpow_natCast, ← zpow_add₀ (by norm_num)]
    congr 2
    ring

end FermiQuiz.Json
