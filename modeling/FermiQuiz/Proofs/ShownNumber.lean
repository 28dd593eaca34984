import Mathlib
import FermiQuiz.Quantity
import FermiQuiz.Proofs.Number.ReadBack
import FermiQuiz.Proofs.Scientific

/-!
# The number shown to a player

Idle zeros are dropped from the decimals of a number alone, so its sign, its whole part and its
exponent stay and it is the same number. A finite double is shown in digits unless it is below
`1e-308` and not zero; the texts of the others have no zero at their end and are not changed.
-/

namespace FermiQuiz

open Number
open Json (Literal isWhole signedText ofDigits_append ofDigits_zeros parts?_of_unsigned
  unsignedParts? unsignedParts?_pointed unsignedParts?_whole)

/-! ### What a text spells -/

/-- Whether a size is for an exponent. -/
def isExtreme (size : Float) : Bool :=
  size != 0.0 && !(1e-3 ≤ size && size < 1e6)

/-- The text of a number before its idle zeros are dropped. -/
def untrimmedText (x : Float) : String :=
  if isExtreme x.abs then
    match scientific x.abs 3 with
    | .ok s =>
      (if x < 0.0 then "-" else "") ++ s.base ++ "e" ++ String.ofList (integerText s.magnitude)
    | .error _ => fixedText 3 x
  else fixedText 3 x

/-- The sign and the exact size of the number that a text spells in digits. -/
def spelled? (s : String) : Option (Bool × ℚ) :=
  (Json.parts? s.toList).map fun l => (l.negative, l.coefficient * 10 ^ l.scale)

/-- The text before an exponent. -/
def mantissa (s : String) : List Char :=
  s.toList.takeWhile (· != 'e')

/-- The text before a point. -/
def wholePart (s : String) : List Char :=
  (mantissa s).takeWhile (· != '.')

theorem nearest_eq_of_value_eq {l l' : Literal} (sign : l.negative = l'.negative)
    (value : (l.coefficient * 10 ^ l.scale : ℚ) = l'.coefficient * 10 ^ l'.scale) :
    l.nearest = l'.nearest := by
  have rounded := isNearest_nearestDecimal l.coefficient l.scale
  rw [value] at rounded
  have same := rounded.unique (isNearest_nearestDecimal l'.coefficient l'.scale)
  unfold Literal.nearest
  rw [sign, same]

/-- Texts that spell one number are read as one double. -/
theorem read?_eq_of_spelled? {s t : String} {v : Bool × ℚ} (hs : spelled? s = some v)
    (ht : spelled? t = some v) : read? s = read? t := by
  obtain ⟨l, parts, rfl⟩ := Option.map_eq_some_iff.mp hs
  obtain ⟨l', parts', same⟩ := Option.map_eq_some_iff.mp ht
  have nearest : l'.nearest = l.nearest :=
    nearest_eq_of_value_eq (congrArg Prod.fst same) (congrArg Prod.snd same)
  rw [read?, read?, Json.readChars?_of_parts? parts, Json.readChars?_of_parts? parts', nearest]

/-! ### Idle zeros -/

/-- Digits less the zeros at their end. -/
def withoutZeros (ds : List Char) : List Char :=
  ds.rdropWhile (· == '0')

theorem withoutZeros_append_zero (ds : List Char) : withoutZeros (ds ++ ['0']) = withoutZeros ds :=
  List.rdropWhile_concat_pos (· == '0') ds '0' rfl

theorem withoutZeros_append_of_ne {c : Char} (h : c ≠ '0') (ds : List Char) :
    withoutZeros (ds ++ [c]) = ds ++ [c] :=
  List.rdropWhile_concat_neg (· == '0') ds c (by simpa using h)

theorem withoutZeros_cases (ds : List Char) :
    withoutZeros ds = [] ∨ ∃ front c, withoutZeros ds = front ++ [c] ∧ c ≠ '0' := by
  induction ds using List.reverseRecOn with
  | nil => exact Or.inl rfl
  | append_singleton ds d ih =>
    by_cases zero : d = '0'
    · rwa [zero, withoutZeros_append_zero]
    · exact Or.inr ⟨ds, d, withoutZeros_append_of_ne zero ds, zero⟩

theorem exists_zeros (ds : List Char) :
    ∃ n, ds = withoutZeros ds ++ List.replicate n '0' := by
  induction ds using List.reverseRecOn with
  | nil => exact ⟨0, rfl⟩
  | append_singleton ds d ih =>
    by_cases zero : d = '0'
    · obtain ⟨n, same⟩ := ih
      refine ⟨n + 1, ?_⟩
      rw [zero, withoutZeros_append_zero, List.replicate_succ', ← List.append_assoc, ← same]
    · refine ⟨0, ?_⟩
      rw [withoutZeros_append_of_ne zero, List.replicate_zero, List.append_nil]

theorem ofDigits_append_zeros (whole fraction : List Char) (n : ℕ) (power : ℤ) :
    (ofDigits (whole ++ (fraction ++ List.replicate n '0')) *
      10 ^ (power - (fraction ++ List.replicate n '0').length) : ℚ) =
      ofDigits (whole ++ fraction) * 10 ^ (power - fraction.length) := by
  rw [← List.append_assoc, ofDigits_append, ofDigits_zeros, List.length_append,
    List.length_replicate, add_zero, Nat.cast_mul, mul_comm (Nat.cast _) (Nat.cast _), mul_assoc,
    Nat.cast_pow, Nat.cast_ofNat, ← zpow_natCast, ← zpow_add₀ (by norm_num)]
  congr 2
  push_cast
  ring

theorem trimDecimals_eq (cs : List Char) : trimDecimals (String.ofList cs) =
    String.ofList ((withoutZeros cs).rdropWhile (· == '.')) := by
  rw [trimDecimals, String.toList_ofList, withoutZeros, List.rdropWhile, List.rdropWhile,
    List.reverse_reverse]

theorem rdropWhile_of_last {c : Char} {cs : List Char} (last : cs.getLast? ≠ some c) :
    cs.rdropWhile (· == c) = cs := by
  rw [List.rdropWhile_eq_self_iff]
  intro nonempty same
  rw [List.getLast?_eq_some_getLast nonempty, eq_of_beq same] at last
  exact last rfl

theorem trimDecimals_of_last {cs : List Char} (zero : cs.getLast? ≠ some '0')
    (point : cs.getLast? ≠ some '.') : trimDecimals (String.ofList cs) = String.ofList cs := by
  rw [trimDecimals_eq, withoutZeros, rdropWhile_of_last zero, rdropWhile_of_last point]

/-- Decimals behind a point; no point without decimals. -/
def decimalPart : List Char → List Char
  | [] => []
  | d :: ds => '.' :: d :: ds

theorem decimalPart_of_ne_nil {ds : List Char} (filled : ds ≠ []) : decimalPart ds = '.' :: ds := by
  cases ds with
  | nil => exact absurd rfl filled
  | cons d ds => rfl

theorem mem_decimalPart {c : Char} {ds : List Char} (h : c ∈ decimalPart ds) :
    c = '.' ∨ c ∈ ds := by
  cases ds with
  | nil => cases h
  | cons d ds => exact List.mem_cons.mp h

theorem head_of_decimalPart {c : Char} {ds : List Char} (h : c ∈ (decimalPart ds).head?) :
    c = '.' := by
  cases ds with
  | nil => cases h
  | cons d ds =>
    cases h
    rfl

/-- Trimming takes zeros from the decimals alone, and the point when there are no others. -/
theorem trimDecimals_pointed {front fraction : List Char} (whole : '.' ∉ front)
    (decimals : '.' ∉ fraction) :
    trimDecimals (String.ofList (front ++ '.' :: fraction)) =
      String.ofList (front ++ decimalPart (withoutZeros fraction)) := by
  -- On the decimals from their end, where one zero is taken after the other.
  induction fraction using List.reverseRecOn with
  | nil =>
    have kept : withoutZeros (front ++ ['.']) = front ++ ['.'] :=
      withoutZeros_append_of_ne (by decide) front
    have last : front.getLast? ≠ some '.' := fun point => whole (List.mem_of_getLast? point)
    rw [trimDecimals_eq, kept, List.rdropWhile_concat_pos (· == '.') front '.' rfl,
      rdropWhile_of_last last]
    exact congrArg String.ofList (List.append_nil front).symm
  | append_singleton ds d ih =>
    rw [List.mem_append, not_or, List.mem_singleton] at decimals
    obtain ⟨before, other⟩ := decimals
    by_cases zero : d = '0'
    · rw [zero, withoutZeros_append_zero, ← ih before, trimDecimals_eq, trimDecimals_eq,
        ← List.cons_append, ← List.append_assoc, withoutZeros_append_zero]
    · have filled : ds ++ [d] ≠ [] := List.append_ne_nil_of_right_ne_nil ds (List.cons_ne_nil d [])
      rw [withoutZeros_append_of_ne zero, decimalPart_of_ne_nil filled, ← List.cons_append,
        ← List.append_assoc]
      apply trimDecimals_of_last
      · rw [List.getLast?_concat]
        simpa using zero
      · rw [List.getLast?_concat]
        simpa using Ne.symm other

/-- At the end stands no point, and after a point no zero. -/
def IsTrimmed (cs : List Char) : Prop :=
  cs.getLast? ≠ some '.' ∧ ('.' ∈ cs → cs.getLast? ≠ some '0')

theorem isTrimmed_of_no_point {cs : List Char} (h : '.' ∉ cs) : IsTrimmed cs :=
  ⟨fun last => h (List.mem_of_getLast? last), fun point => absurd point h⟩

/-! ### Signs and exponents -/

theorem signedText_append (negative : Bool) (xs ys : List Char) :
    signedText negative (xs ++ ys) = signedText negative xs ++ ys := by
  cases negative <;> rfl

theorem mem_signedText {negative : Bool} {c : Char} {cs : List Char}
    (h : c ∈ signedText negative cs) : c = '-' ∨ c ∈ cs := by
  cases negative with
  | true => exact List.mem_cons.mp h
  | false => exact Or.inr h

theorem takeSign_integerText (m : ℤ) :
    takeSign (integerText m) = (decide (m < 0), digits m.natAbs) := by
  unfold integerText
  split
  · next negative =>
    rw [decide_eq_true negative]
    rfl
  · next nonneg =>
    rw [decide_eq_false nonneg]
    cases written : digits m.natAbs with
    | nil => exact absurd written Nat.toDigits_ne_nil
    | cons c cs =>
      have digit : isDigit c = true :=
        Json.isDigit_of_mem_digits (n := m.natAbs) (written ▸ List.mem_cons_self)
      exact takeSign_of_digit digit

/-- An exponent, or nothing. -/
def powerText : Option ℤ → List Char
  | none => []
  | some m => 'e' :: integerText m

theorem exists_exponent?_powerText (power : Option ℤ) :
    ∃ e, Json.exponent? (powerText power) = some e ∧ Json.exponentValue e = power.getD 0 := by
  cases power with
  | none => exact ⟨none, rfl, rfl⟩
  | some m =>
    have some_digit : (digits m.natAbs).isEmpty = false :=
      List.isEmpty_eq_false_iff.mpr Nat.toDigits_ne_nil
    have all : (digits m.natAbs).all isDigit = true :=
      List.all_eq_true.mpr fun c member => Json.isDigit_of_mem_digits member
    refine ⟨_, ?_, Json.exponentValue_exponentTail m⟩
    rw [powerText, Json.exponent?_cons, takeSign_integerText, some_digit, all]
    rfl

theorem mantissa_append_powerText {cs : List Char} (mark : 'e' ∉ cs) (power : Option ℤ) :
    mantissa (String.ofList (cs ++ powerText power)) = cs := by
  have before : ∀ c ∈ cs, (c != 'e') = true := by
    intro c member
    rw [bne_iff_ne]
    rintro rfl
    exact mark member
  have ends : ∀ c ∈ (powerText power).head?, (c != 'e') = false := by
    intro c first
    cases power with
    | none => cases first
    | some m =>
      cases first
      rfl
  rw [mantissa, String.toList_ofList]
  exact (Json.span_append before ends).1

/-! ### Numbers in digits -/

/-- A number written in digits: its sign, the digits before and after the point, and the power of
ten. -/
structure Written where
  negative : Bool
  whole : List Char
  fraction : List Char
  power : Option ℤ
  proper : isWhole whole = true
  whole_digits : ∀ c ∈ whole, isDigit c = true
  fraction_digits : ∀ c ∈ fraction, isDigit c = true

namespace Written

/-- The number without its sign and its power of ten. -/
def size (w : Written) : List Char :=
  w.whole ++ decimalPart w.fraction

def text (w : Written) : String :=
  String.ofList (signedText w.negative w.size ++ powerText w.power)

def value (w : Written) : ℚ :=
  ofDigits (w.whole ++ w.fraction) * 10 ^ (w.power.getD 0 - w.fraction.length)

/-- The same number without the zeros that end its decimals. -/
def trimmed (w : Written) : Written where
  negative := w.negative
  whole := w.whole
  fraction := withoutZeros w.fraction
  power := w.power
  proper := w.proper
  whole_digits := w.whole_digits
  fraction_digits := fun c member =>
    w.fraction_digits c ((List.rdropWhile_prefix (· == '0') w.fraction).subset member)

variable (w : Written)

@[simp] theorem trimmed_negative : w.trimmed.negative = w.negative := rfl

@[simp] theorem trimmed_whole : w.trimmed.whole = w.whole := rfl

@[simp] theorem trimmed_fraction : w.trimmed.fraction = withoutZeros w.fraction := rfl

@[simp] theorem trimmed_power : w.trimmed.power = w.power := rfl

theorem exists_parts : ∃ l : Literal, Json.parts? w.text.toList = some l ∧
    l.negative = w.negative ∧ l.coefficient * 10 ^ l.scale = w.value := by
  obtain ⟨e, exponent, value⟩ := exists_exponent?_powerText w.power
  refine ⟨⟨w.negative, w.whole, w.fraction, e⟩, ?_, rfl, ?_⟩
  · rw [text, String.toList_ofList, ← signedText_append]
    apply parts?_of_unsigned
    rw [size, List.append_assoc]
    by_cases filled : w.fraction = []
    · rw [filled]
      exact unsignedParts?_whole _ w.proper w.whole_digits exponent
    · rw [decimalPart_of_ne_nil filled]
      exact unsignedParts?_pointed _ w.proper w.whole_digits filled w.fraction_digits exponent
  · rw [Literal.coefficient, Literal.scale, value, Written.value]

theorem spelled?_text : spelled? w.text = some (w.negative, w.value) := by
  obtain ⟨l, parts, sign, value⟩ := w.exists_parts
  rw [spelled?, parts, Option.map_some, sign, value]

theorem value_trimmed : w.trimmed.value = w.value := by
  obtain ⟨n, same⟩ := exists_zeros w.fraction
  have shorter := ofDigits_append_zeros w.whole (withoutZeros w.fraction) n (w.power.getD 0)
  rw [← same] at shorter
  exact shorter.symm

theorem spelled?_trimmed : spelled? w.trimmed.text = spelled? w.text := by
  rw [spelled?_text, spelled?_text, value_trimmed, trimmed_negative]

theorem read?_trimmed : read? w.trimmed.text = read? w.text :=
  read?_eq_of_spelled? (w.spelled?_trimmed.trans w.spelled?_text) w.spelled?_text

theorem not_mem_size {c : Char} (other : isDigit c = false) (no_point : c ≠ '.') : c ∉ w.size := by
  intro member
  have digit : isDigit c = true := by
    rcases List.mem_append.mp member with whole | fraction
    · exact w.whole_digits c whole
    · rcases mem_decimalPart fraction with point | fraction
      · exact absurd point no_point
      · exact w.fraction_digits c fraction
  rw [digit] at other
  cases other

theorem mantissa_text : mantissa w.text = signedText w.negative w.size := by
  apply mantissa_append_powerText
  intro member
  rcases mem_signedText member with minus | size
  · exact absurd minus (by decide)
  · exact w.not_mem_size (by decide) (by decide) size

theorem no_point (negative : Bool) : '.' ∉ signedText negative w.whole := by
  intro member
  rcases mem_signedText member with minus | whole
  · exact absurd minus (by decide)
  · exact absurd (w.whole_digits '.' whole) (by decide)

theorem wholePart_text : wholePart w.text = signedText w.negative w.whole := by
  have before : ∀ c ∈ signedText w.negative w.whole, (c != '.') = true := by
    intro c member
    rw [bne_iff_ne]
    rintro rfl
    exact w.no_point _ member
  have ends : ∀ c ∈ (decimalPart w.fraction).head?, (c != '.') = false := by
    intro c first
    rw [head_of_decimalPart first]
    rfl
  rw [wholePart, mantissa_text, size, signedText_append]
  exact (Json.span_append before ends).1

theorem isTrimmed_mantissa : IsTrimmed (mantissa w.trimmed.text) := by
  have digits := w.trimmed.fraction_digits
  simp only [mantissa_text, size, signedText_append, trimmed_negative, trimmed_whole,
    trimmed_fraction] at digits ⊢
  obtain none | ⟨front, c, kept, nonzero⟩ := withoutZeros_cases w.fraction
  · rw [none, decimalPart, List.append_nil]
    exact isTrimmed_of_no_point (w.no_point _)
  · have digit : isDigit c = true := by
      apply digits
      rw [kept]
      exact List.mem_append_right front List.mem_cons_self
    have last : (signedText w.negative w.whole ++ '.' :: (front ++ [c])).getLast? = some c := by
      rw [← List.cons_append, ← List.append_assoc, List.getLast?_concat]
    rw [kept, decimalPart_of_ne_nil (by simp)]
    constructor
    · rw [last]
      rintro ⟨⟩
      cases digit
    · intro _
      rw [last]
      simpa using nonzero

theorem trimDecimals_size (filled : w.fraction ≠ []) (negative : Bool) :
    trimDecimals (String.ofList (signedText negative w.size)) =
      String.ofList (signedText negative w.trimmed.size) := by
  have decimals : '.' ∉ w.fraction := by
    intro member
    exact absurd (w.fraction_digits '.' member) (by decide)
  rw [size, decimalPart_of_ne_nil filled, signedText_append,
    trimDecimals_pointed (w.no_point negative) decimals, size, signedText_append, trimmed_whole,
    trimmed_fraction]

end Written

theorem exists_written {places : ℕ} {text : List Char} {v : ℚ} (h : IsFixed places text v)
    (pointed : places ≠ 0) (negative : Bool) (power : Option ℤ) :
    ∃ w : Written, w.negative = negative ∧ w.power = power ∧ w.size = text ∧ w.fraction ≠ [] := by
  obtain ⟨whole, fraction, proper, digits, count, rfl, -⟩ := h
  have filled : fraction ≠ [] := List.ne_nil_of_length_pos (by omega)
  refine ⟨⟨negative, whole, fraction, power, proper, ?_, ?_⟩, rfl, rfl, ?_, filled⟩
  · intro c member
    exact digits c (List.mem_append_left fraction member)
  · intro c member
    exact digits c (List.mem_append_right whole member)
  · rw [Written.size, decimalPart_of_ne_nil filled, if_neg pointed]

/-! ### Words -/

/-- The texts that are no digits, as mantissas. -/
def wordMantissas : List (List Char) :=
  [['N', 'a', 'N'], ['i', 'n', 'f'], ['-', 'i', 'n', 'f']]

theorem trimDecimals_word : ∀ word ∈ wordMantissas,
    trimDecimals (String.ofList word) = String.ofList word := by
  decide

theorem not_mem_word : ∀ word ∈ wordMantissas, 'e' ∉ word ∧ '.' ∉ word := by
  decide

theorem parts?_word {word : List Char} (h : word ∈ wordMantissas) (tail : List Char) :
    Json.parts? (word ++ tail) = none := by
  simp only [wordMantissas, List.mem_cons, List.not_mem_nil, or_false] at h
  rcases h with rfl | rfl | rfl <;> rfl

/-! ### The two forms -/

section

variable {x : Float}

theorem isPositive_abs_iff : isPositive x.abs = true ↔ x.isFinite = true ∧ (x == 0.0) = false := by
  constructor
  · intro positive
    obtain ⟨s, e, parts, above⟩ := isPositive_iff.mp positive
    have finite : x.isFinite = true := by
      rw [← isFinite_abs]
      exact isFinite_iff.mpr ⟨_, _, _, parts⟩
    refine ⟨finite, Bool.eq_false_iff.mpr fun zero => ?_⟩
    obtain ⟨negative, e', parts'⟩ := beq_zero_iff.mp zero
    rw [ofFloat_abs parts'] at parts
    cases parts
    exact above.false
  · rintro ⟨finite, nonzero⟩
    obtain ⟨negative, s, e, parts⟩ := isFinite_iff.mp finite
    refine isPositive_iff.mpr ⟨s, e, ofFloat_abs parts, Nat.pos_of_ne_zero ?_⟩
    rintro rfl
    rw [beq_zero_iff.mpr ⟨negative, e, parts⟩] at nonzero
    cases nonzero

theorem numberText_eq (x : Float) : numberText x =
    if isExtreme x.abs then
      match scientific x.abs 3 with
      | .ok s =>
        (if x < 0.0 then "-" else "") ++ trimDecimals s.base ++ "e" ++
          String.ofList (integerText s.magnitude)
      | .error _ => trimDecimals (fixedText 3 x)
    else trimDecimals (fixedText 3 x) := rfl

theorem texts_of_fixed (h : ¬ (isExtreme x.abs = true ∧ isPositive x.abs = true)) :
    untrimmedText x = fixedText 3 x ∧ numberText x = trimDecimals (fixedText 3 x) := by
  rw [numberText_eq, untrimmedText]
  by_cases extreme : isExtreme x.abs = true
  · have other : ¬ ∃ m, magnitude x.abs = .ok m := fun known =>
      h ⟨extreme, exists_magnitude_iff.mp known⟩
    rw [if_pos extreme, if_pos extreme]
    cases written : scientific x.abs 3 with
    | error _ => exact ⟨rfl, rfl⟩
    | ok s =>
      rw [scientific] at written
      cases known : magnitude x.abs with
      | error _ =>
        rw [known] at written
        cases written
      | ok m => exact absurd ⟨m, known⟩ other
  · rw [if_neg extreme, if_neg extreme]
    exact ⟨rfl, rfl⟩

theorem texts_of_scientific {s : Scientific} (extreme : isExtreme x.abs = true)
    (written : scientific x.abs 3 = .ok s) :
    untrimmedText x = String.ofList
      (signedText (decide (x < 0.0)) s.base.toList ++ powerText s.magnitude) ∧
    numberText x = String.ofList
      (signedText (decide (x < 0.0)) (trimDecimals s.base).toList ++ powerText s.magnitude) := by
  have joined (base : String) : (if x < 0.0 then "-" else "") ++ base ++ "e" ++
      String.ofList (integerText s.magnitude) = String.ofList
        (signedText (decide (x < 0.0)) base.toList ++ powerText s.magnitude) := by
    apply String.toList_injective
    by_cases below : x < 0.0
    · simp [below, signedText, powerText]
    · simp [below, signedText, powerText]
  rw [numberText_eq, untrimmedText, if_pos extreme, if_pos extreme, written]
  exact ⟨joined s.base, joined (trimDecimals s.base)⟩

theorem exists_fixedText (finite : x.isFinite = true) :
    ∃ w : Written, fixedText 3 x = w.text ∧ trimDecimals (fixedText 3 x) = w.trimmed.text := by
  obtain ⟨negative, s, e, parts⟩ := isFinite_iff.mp finite
  have fixed := isFixed_withPlaces (roundEven (numerator s e * Nat.pow 10 3) (denominator e)) 3
  obtain ⟨w, sign, power, size, filled⟩ := exists_written fixed (by decide) negative none
  have text : fixedText 3 x = String.ofList (signedText negative w.size) := by
    rw [fixedText, signed, parts, size]
    cases negative <;> rfl
  refine ⟨w, ?_, ?_⟩
  · rw [text, Written.text, sign, power, powerText, List.append_nil]
  · rw [text, w.trimDecimals_size filled, Written.text, w.trimmed_negative, w.trimmed_power,
      sign, power, powerText, List.append_nil]

theorem exists_word (infinite : ¬ x.isFinite = true) : ∃ word ∈ wordMantissas,
    fixedText 3 x = String.ofList word := by
  rw [fixedText, signed]
  cases parts : Parts.ofFloat x with
  | nan => exact ⟨['N', 'a', 'N'], by decide, rfl⟩
  | infinite negative =>
    cases negative with
    | false => exact ⟨['i', 'n', 'f'], by decide, rfl⟩
    | true => exact ⟨['-', 'i', 'n', 'f'], by decide, rfl⟩
  | finite negative s e => exact absurd (isFinite_iff.mpr ⟨_, _, _, parts⟩) infinite

theorem isExtreme_of_tiny (nonzero : (x == 0.0) = false) (small : ¬ 1e-308 ≤ x.abs) :
    isExtreme x.abs = true := by
  have size_nonzero : (x.abs == 0.0) = false := by
    by_cases finite : x.isFinite = true
    · exact beq_zero_of_isPositive (isPositive_abs_iff.mpr ⟨finite, nonzero⟩)
    · rw [Bool.eq_false_iff]
      intro zero
      rw [← isFinite_abs] at finite
      exact finite (isFinite_of_beq_zero zero)
  have below : ¬ 1e-3 ≤ x.abs := by
    intro le
    have less : (1e-308 : Float) < 1e-3 := by decide +kernel
    obtain ⟨small_number, number⟩ := isNaN_of_lt (Number.lt_of_lt_of_le less le)
    refine small ((le_iff_rank_le small_number number).mpr ?_)
    exact ((lt_iff_rank_lt small_number number).mp (Number.lt_of_lt_of_le less le)).le
  rw [isExtreme, bne, size_nonzero, decide_eq_false below]
  rfl

/-- A finite double that is zero or at least `1e-308` in size is shown in digits. -/
theorem texts_of_digits (finite : x.isFinite = true)
    (sized : (x == 0.0) = true ∨ 1e-308 ≤ x.abs) :
    ∃ w : Written, untrimmedText x = w.text ∧ numberText x = w.trimmed.text := by
  by_cases powered : isExtreme x.abs = true ∧ isPositive x.abs = true
  · obtain ⟨extreme, positive⟩ := powered
    obtain ⟨m, known⟩ := exists_magnitude_iff.mpr positive
    have large : 1e-308 ≤ x.abs := by
      rcases sized with zero | large
      · rw [(isPositive_abs_iff.mp positive).2] at zero
        cases zero
      · exact large
    rw [← nearestDecimal_one_neg, ← le_magnitude_iff known] at large
    obtain ⟨s, v, written, rfl, writes, -⟩ := exists_writes 3 known large
    obtain ⟨w, sign, power, size, filled⟩ :=
      exists_written writes.base_fixed (by decide) (decide (x < 0.0)) (some s.magnitude)
    obtain ⟨untrimmed, shown⟩ := texts_of_scientific extreme written
    have base : trimDecimals s.base = String.ofList w.trimmed.size := by
      have full : s.base = String.ofList w.size := by rw [size, String.ofList_toList]
      rw [full]
      exact w.trimDecimals_size filled false
    refine ⟨w, ?_, ?_⟩
    · rw [untrimmed, Written.text, sign, power, size]
    · rw [shown, base, String.toList_ofList, Written.text, w.trimmed_negative, w.trimmed_power,
        sign, power]
  · obtain ⟨untrimmed, shown⟩ := texts_of_fixed powered
    rw [untrimmed, shown]
    exact exists_fixedText finite

/-- Every other text is a word with an exponent or without. -/
theorem texts_of_word (h : ¬ (x.isFinite = true ∧ ((x == 0.0) = true ∨ 1e-308 ≤ x.abs))) :
    ∃ word ∈ wordMantissas, ∃ power, untrimmedText x = String.ofList (word ++ powerText power) ∧
      numberText x = untrimmedText x := by
  by_cases finite : x.isFinite = true
  · have other : ¬ ((x == 0.0) = true ∨ 1e-308 ≤ x.abs) := fun sized => h ⟨finite, sized⟩
    obtain ⟨nonzero, small⟩ := not_or.mp other
    rw [Bool.not_eq_true] at nonzero
    have extreme := isExtreme_of_tiny nonzero small
    obtain ⟨m, known⟩ := exists_magnitude_iff.mpr (isPositive_abs_iff.mpr ⟨finite, nonzero⟩)
    rw [← nearestDecimal_one_neg, ← le_magnitude_iff known, not_le] at small
    obtain ⟨s, written, rfl, -, base⟩ := exists_infinite_base 3 known small
    obtain ⟨untrimmed, shown⟩ := texts_of_scientific extreme written
    have kept : trimDecimals s.base = s.base := by
      rw [base]
      decide
    refine ⟨signedText (decide (x < 0.0)) ['i', 'n', 'f'], ?_, s.magnitude, ?_, ?_⟩
    · cases decide (x < 0.0) <;> decide
    · rw [untrimmed, base]
      rfl
    · rw [shown, untrimmed, kept]
  · have unpowered : ¬ (isExtreme x.abs = true ∧ isPositive x.abs = true) := fun powered =>
      finite (isPositive_abs_iff.mp powered.2).1
    obtain ⟨untrimmed, shown⟩ := texts_of_fixed unpowered
    obtain ⟨word, listed, text⟩ := exists_word finite
    refine ⟨word, listed, none, ?_, ?_⟩
    · rw [untrimmed, text, powerText, List.append_nil]
    · rw [untrimmed, shown, text, trimDecimals_word word listed]

end

/-- Trimming changes neither the sign nor the size of the number that is shown, nor the double it is
read as, and leaves no idle zero or point; the whole part keeps its zeros. All doubles are shown in
digits but those that are not finite, and those below `1e-308` that are not zero: their texts are
left as they are. -/
theorem trimming_keeps_number (q : Quantity) :
    q.text = numberText q.value ++ (if q.units = "" then "" else " " ++ q.units) ∧
    spelled? (numberText q.value) = spelled? (untrimmedText q.value) ∧
    read? (numberText q.value) = read? (untrimmedText q.value) ∧
    ((spelled? (untrimmedText q.value)).isSome ↔
      q.value.isFinite ∧ (q.value == 0.0 ∨ 1e-308 ≤ q.value.abs)) ∧
    (spelled? (untrimmedText q.value) = none → numberText q.value = untrimmedText q.value) ∧
    IsTrimmed (mantissa (numberText q.value)) ∧
    wholePart (numberText q.value) = wholePart (untrimmedText q.value) := by
  constructor
  · unfold Quantity.text
    split
    · exact (String.append_empty).symm
    · exact String.append_assoc ..
  · by_cases digits : q.value.isFinite = true ∧
        ((q.value == 0.0) = true ∨ 1e-308 ≤ q.value.abs)
    · obtain ⟨w, untrimmed, shown⟩ := texts_of_digits digits.1 digits.2
      have spelled := w.spelled?_text
      rw [untrimmed, shown]
      refine ⟨w.spelled?_trimmed, w.read?_trimmed, ?_, ?_, w.isTrimmed_mantissa, ?_⟩
      · rw [spelled]
        exact iff_of_true rfl digits
      · rw [spelled]
        intro none
        cases none
      · rw [w.trimmed.wholePart_text, w.wholePart_text, w.trimmed_negative, w.trimmed_whole]
    · obtain ⟨word, listed, power, untrimmed, shown⟩ := texts_of_word digits
      obtain ⟨mark, point⟩ := not_mem_word word listed
      rw [shown]
      refine ⟨rfl, rfl, ?_, fun _ => rfl, ?_, rfl⟩
      · rw [untrimmed, spelled?, String.toList_ofList, parts?_word listed]
        exact iff_of_false Bool.false_ne_true digits
      · rw [untrimmed, mantissa_append_powerText mark]
        exact isTrimmed_of_no_point point

theorem trimming_of_round_numbers :
    (untrimmedText 9999000.0 = "10.00e6" ∧ numberText 9999000.0 = "10e6" ∧
      spelled? (numberText 9999000.0) = spelled? (untrimmedText 9999000.0)) ∧
    ((⟨330000.0, "m"⟩ : Quantity).text = "330000 m" ∧ untrimmedText 330000.0 = "330000.000" ∧
      wholePart (numberText 330000.0) = wholePart (untrimmedText 330000.0)) ∧
    (untrimmedText 1e-310 = "infe-310" ∧ spelled? (untrimmedText 1e-310) = none ∧
      numberText 1e-310 = untrimmedText 1e-310) := by
  have texts : (untrimmedText 9999000.0 = "10.00e6" ∧ numberText 9999000.0 = "10e6") ∧
      (untrimmedText 330000.0 = "330000.000" ∧ numberText 330000.0 = "330000") ∧
      untrimmedText 1e-310 = "infe-310" := by
    decide +kernel
  obtain ⟨⟨full, short⟩, ⟨full', short'⟩, tiny⟩ := texts
  have unspelled : spelled? (untrimmedText 1e-310) = none := by
    rw [tiny, spelled?, Option.map_eq_none_iff]
    decide
  obtain ⟨-, same, -⟩ := trimming_keeps_number ⟨9999000.0, ""⟩
  obtain ⟨text, -, -, -, -, -, whole⟩ := trimming_keeps_number ⟨330000.0, "m"⟩
  obtain ⟨-, -, -, -, kept, -⟩ := trimming_keeps_number ⟨1e-310, ""⟩
  refine ⟨⟨full, short, same⟩, ⟨?_, full', whole⟩, tiny, unspelled, kept unspelled⟩
  rw [text, short']
  rfl

end FermiQuiz
