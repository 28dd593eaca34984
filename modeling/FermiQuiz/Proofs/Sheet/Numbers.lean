import Mathlib
import FermiQuiz.Proofs.Json.Number
import FermiQuiz.Proofs.Sheet.Grammar

/-!
# Numbers in entries

The numbers of documents are those with ASCII digits. With a blank after it all of such a number is
taken, and of the number parts it is these that have a value.
-/

namespace FermiQuiz.Sheet

open Number (isDigit)
open Json (isWhole exponent?)
open Text (isScriptDigit)

/-! ### Numbers in ASCII -/

section

variable {n : List Char} {p q : Char → Bool}

theorem IsNumber.of_forall (number : IsNumber p n) (digits : ∀ c ∈ n, p c = true → q c = true) :
    IsNumber q n := by
  cases number with
  | @mk minus whole point tail signed is_whole fraction exponent =>
    rw [List.forall_mem_append, List.forall_mem_append, List.forall_mem_append] at digits
    obtain ⟨-, ⟨digits, digits'⟩, digits''⟩ := digits
    refine .mk signed ?_ ?_ ?_
    · cases is_whole with
      | zero => exact .zero
      | digits first rest =>
        exact .digits first fun d member => digits d (List.mem_cons_of_mem _ member) (rest d member)
    · cases fraction with
      | none => exact .none
      | digits some_digit all =>
        exact .digits some_digit fun d member =>
          digits' d (List.mem_cons_of_mem _ member) (all d member)
    · cases exponent with
      | none => exact .none
      | digits marked signed some_digit all =>
        exact .digits marked signed some_digit fun d member =>
          digits'' d (List.mem_cons_of_mem _ (List.mem_append_right _ member)) (all d member)

theorem isWhole_and_isDigit_iff :
    (isWhole n = true ∧ ∀ c ∈ n, isDigit c = true) ↔ IsWhole isDigit n := by
  constructor
  · rintro ⟨proper, digits⟩
    cases n with
    | nil => cases proper
    | cons d ds =>
      obtain ⟨digit, digits⟩ := List.forall_mem_cons.mp digits
      by_cases zero : d = '0'
      · subst zero
        cases ds with
        | nil => exact .zero
        | cons d ds => cases proper
      · rw [Number.isDigit_iff] at digit
        have nonzero : d.toNat ≠ 48 := fun same => zero (Char.toNat_inj.mp same)
        exact .digits ⟨show 49 ≤ d.toNat by omega, show d.toNat ≤ 57 by omega⟩ digits
  · intro whole
    cases whole with
    | zero => exact ⟨rfl, List.forall_mem_singleton.mpr rfl⟩
    | @digits c ds first digits =>
      have least : 49 ≤ c.toNat := first.1
      have most : c.toNat ≤ 57 := first.2
      have run : Json.IsRun (c :: ds) := by
        refine ⟨List.forall_mem_cons.mpr ⟨Number.isDigit_iff.mpr ⟨by omega, most⟩, digits⟩,
          c, ds, rfl, ?_⟩
        rintro rfl
        exact absurd least (by decide)
      exact ⟨run.isWhole, run.all⟩

theorem takeSign_eq (cs : List Char) : ∃ sign, cs = sign ++ (Number.takeSign cs).2 ∧
    (sign = [] ∨ sign = ['+'] ∨ sign = ['-']) := by
  unfold Number.takeSign
  split
  · exact ⟨['-'], rfl, by simp⟩
  · exact ⟨['+'], rfl, by simp⟩
  · exact ⟨[], rfl, by simp⟩

theorem isSome_exponent?_iff : (exponent? n).isSome = true ↔ IsExponent isDigit n := by
  constructor
  · intro exponent
    cases n with
    | nil => exact .none
    | cons c cs =>
      rw [Json.exponent?_cons] at exponent
      split at exponent
      · next mark =>
        split at exponent
        · cases exponent
        · next proper =>
          rw [Bool.or_eq_true, decide_eq_true_eq, decide_eq_true_eq] at mark
          simp only [Bool.or_eq_true, Bool.not_eq_true', not_or, Bool.not_eq_false,
            List.all_eq_true, List.isEmpty_iff] at proper
          obtain ⟨sign, spelled, signed⟩ := takeSign_eq cs
          rw [spelled]
          exact .digits mark signed proper.1 proper.2
      · cases exponent
  · intro exponent
    cases exponent with
    | none => rfl
    | @digits mark sign ds marked signed some_digit digits =>
      have taken : (Number.takeSign (sign ++ ds)).2 = ds := by
        obtain rfl | rfl | rfl := signed
        · obtain ⟨d, ds, rfl⟩ := List.exists_cons_of_ne_nil some_digit
          rw [List.nil_append, Number.takeSign_of_digit (digits d List.mem_cons_self)]
        · rfl
        · rfl
      have mark_eq : (mark = 'e' || mark = 'E') = true := by simpa using marked
      have proper : (ds.isEmpty || !ds.all isDigit) = false := by
        simpa [some_digit] using digits
      rw [Json.exponent?_cons, if_pos mark_eq, taken, proper]
      rfl

theorem isNumber_of_isLiteral (literal : Json.isLiteral n = true) : IsNumber isDigit n := by
  obtain ⟨l, parts⟩ := Option.isSome_iff_exists.mp literal
  obtain ⟨negative, body, signed, same⟩ := Json.parts?_eq n
  have minus : ∃ minus, (minus = [] ∨ minus = ['-']) ∧ n = minus ++ body := by
    cases negative with
    | false => exact ⟨[], Or.inl rfl, signed⟩
    | true => exact ⟨['-'], Or.inr rfl, signed⟩
  obtain ⟨minus, is_minus, rfl⟩ := minus
  rw [same, Json.unsignedParts?] at parts
  have whole := List.takeWhile_append_dropWhile (p := isDigit) (l := body)
  split at parts
  · cases parts
  · next proper =>
    rw [Bool.not_eq_true', Bool.not_eq_false] at proper
    have is_whole := isWhole_and_isDigit_iff.mp ⟨proper, fun _ => List.mem_takeWhile_imp⟩
    split at parts
    · next after pointed =>
      split at parts
      · cases parts
      · next some_after =>
        obtain ⟨x, read, -⟩ := Option.map_eq_some_iff.mp parts
        have after_eq := List.takeWhile_append_dropWhile (p := isDigit) (l := after)
        have exponent := isSome_exponent?_iff.mp (Option.isSome_of_eq_some read)
        rw [← whole, pointed, ← after_eq, ← List.cons_append,
          ← List.append_assoc (body.takeWhile isDigit)]
        exact .mk is_minus is_whole
          (.digits (by simpa using some_after) fun _ => List.mem_takeWhile_imp) exponent
    · obtain ⟨x, read, -⟩ := Option.map_eq_some_iff.mp parts
      have exponent := isSome_exponent?_iff.mp (Option.isSome_of_eq_some read)
      have number := IsNumber.mk is_minus is_whole .none exponent
      rwa [List.append_nil, whole] at number

theorem isLiteral_iff : Json.isLiteral n = true ↔ IsNumber isDigit n := by
  refine ⟨isNumber_of_isLiteral, fun number => ?_⟩
  cases number with
  | @mk minus whole point tail signed is_whole fraction exponent =>
    obtain ⟨proper, digits⟩ := isWhole_and_isDigit_iff.mpr is_whole
    obtain ⟨x, exponent⟩ := Option.isSome_iff_exists.mp (isSome_exponent?_iff.mpr exponent)
    obtain ⟨negative, sign⟩ : ∃ negative, minus ++ (whole ++ point ++ tail) =
        Json.signedText negative (whole ++ point ++ tail) := by
      obtain rfl | rfl := signed
      · exact ⟨false, rfl⟩
      · exact ⟨true, rfl⟩
    rw [sign, Json.isLiteral]
    cases fraction with
    | none =>
      rw [List.append_nil]
      rw [Json.parts?_of_unsigned (Json.unsignedParts?_whole negative proper digits exponent)]
      rfl
    | digits some_digit digits' =>
      rw [List.append_assoc, List.cons_append]
      rw [Json.parts?_of_unsigned
        (Json.unsignedParts?_pointed negative proper digits some_digit digits' exponent)]
      rfl

end

/-- All of a number is taken if nothing or a blank comes after it. -/
theorem takeNumbers?_literal {n rest : List Char} (literal : Json.isLiteral n = true)
    (ends : ∀ c ∈ rest.head?, c = ' ') : takeNumbers? (n ++ rest) = some (n, rest) := by
  have number := (isLiteral_iff.mp literal).of_forall fun c _ => isScriptDigit_of_isDigit
  obtain ⟨taken, found, more, same, left, begins⟩ := takeNumber?_of_isNumber number rest
  have none_more : takeMore rest = ([], rest) := by
    refine takeMore_of_head fun c head => ?_
    rw [ends c head]
    decide
  cases more with
  | nil =>
    rw [List.nil_append] at left
    rw [takeNumbers?, found]
    dsimp only
    rw [same, ← left, none_more, List.append_nil, List.append_nil]
  | cons c more =>
    have blank := ends c (by rw [left]; rfl)
    rw [blank] at begins
    exact absurd (begins ' ' rfl) (by unfold GoesOn; decide)

/-! ### Number parts with a value -/

def BeginsNumber (cs : List Char) : Prop :=
  ∃ c tail, (cs = c :: tail ∨ cs = '-' :: c :: tail) ∧ isDigit c = true

section

variable {cs n : List Char}

theorem BeginsNumber.append (begins : BeginsNumber cs) (more : List Char) :
    BeginsNumber (cs ++ more) := by
  obtain ⟨c, tail, rfl | rfl, digit⟩ := begins
  · exact ⟨c, tail ++ more, Or.inl rfl, digit⟩
  · exact ⟨c, tail ++ more, Or.inr rfl, digit⟩

theorem BeginsNumber.readChars?_eq (begins : BeginsNumber cs) :
    Number.readChars? cs = (Number.unsigned? (Number.takeSign cs).2).map fun (n, e) =>
      if (Number.takeSign cs).1 then -Number.nearestDecimal n e
      else Number.nearestDecimal n e := by
  obtain ⟨c, tail, rfl | rfl, digit⟩ := begins
  · rw [Number.takeSign_of_digit digit]
    exact Number.readChars?_of_digit (Number.takeSign_of_digit digit) rfl digit
  · exact Number.readChars?_of_digit rfl rfl digit

theorem beginsNumber_of_isNumber (number : IsNumber isScriptDigit n) : BeginsNumber n := by
  cases number with
  | @mk minus whole point tail signed digits =>
    obtain ⟨c, ds, rfl, digit⟩ : ∃ c ds, whole = c :: ds ∧ isDigit c = true := by
      cases digits with
      | zero => exact ⟨'0', [], rfl, rfl⟩
      | @digits c ds first =>
        have least : 49 ≤ c.toNat := first.1
        exact ⟨c, ds, rfl, Number.isDigit_iff.mpr ⟨by omega, first.2⟩⟩
    obtain rfl | rfl := signed
    · exact ⟨c, _, Or.inl rfl, digit⟩
    · exact ⟨c, _, Or.inr rfl, digit⟩

theorem beginsNumber_of_isNumberPart (part : IsNumberPart n) : BeginsNumber n := by
  cases part with
  | one number => exact beginsNumber_of_isNumber number
  | more number => exact (beginsNumber_of_isNumber number).append _

theorem isExponent_of_exponentPart? (exponent : (Number.exponentPart? cs).isSome = true) :
    IsExponent isDigit cs := by
  refine isSome_exponent?_iff.mp ?_
  cases cs with
  | nil => rfl
  | cons c cs =>
    rw [Json.exponentPart?_cons] at exponent
    rw [Json.exponent?_cons]
    split_ifs at exponent ⊢ <;> first | rfl | exact exponent

/-- What is a numeral without its sign: digits with a point or without, and an exponent. -/
theorem exists_of_unsigned? (read : (Number.unsigned? cs).isSome = true) :
    ∃ mantissa tail, cs = mantissa ++ tail ∧ (∀ c ∈ mantissa, c = '.' ∨ isDigit c = true) ∧
      IsExponent isDigit tail := by
  have whole := List.takeWhile_append_dropWhile (p := isDigit) (l := cs)
  have digits : ∀ c ∈ cs.takeWhile isDigit, c = '.' ∨ isDigit c = true :=
    fun c member => Or.inr (List.mem_takeWhile_imp member)
  unfold Number.unsigned? at read
  split at read
  next fraction rest divided =>
    have exponent : (Number.exponentPart? rest).isSome = true := by
      dsimp only at read
      split at read
      · cases read
      · rwa [Option.isSome_map] at read
    have exponent := isExponent_of_exponentPart? exponent
    split at divided
    · next after pointed =>
      cases divided
      refine ⟨cs.takeWhile isDigit ++ '.' :: after.takeWhile isDigit, _, ?_, ?_, exponent⟩
      · rw [List.append_assoc, List.cons_append, List.takeWhile_append_dropWhile, ← pointed, whole]
      · refine List.forall_mem_append.mpr ⟨digits, List.forall_mem_cons.mpr ⟨Or.inl rfl, ?_⟩⟩
        exact fun c member => Or.inr (List.mem_takeWhile_imp member)
    · cases divided
      exact ⟨cs.takeWhile isDigit, _, whole.symm, digits, exponent⟩

theorem isDigit_of_unsigned? (read : (Number.unsigned? cs).isSome = true) :
    ∀ c ∈ cs, isScriptDigit c = true → isDigit c = true := by
  obtain ⟨mantissa, tail, rfl, plain, exponent⟩ := exists_of_unsigned? read
  refine List.forall_mem_append.mpr ⟨fun c member script => ?_, ?_⟩
  · obtain rfl | digit := plain c member
    · exact absurd script (by decide)
    · exact digit
  · cases exponent with
    | none => exact List.forall_mem_nil _
    | digits marked signed _ digits =>
      refine List.forall_mem_cons.mpr ⟨fun script => ?_, List.forall_mem_append.mpr ⟨?_, ?_⟩⟩
      · obtain rfl | rfl := marked <;> exact absurd script (by decide)
      · obtain rfl | rfl | rfl := signed <;> simp <;> decide
      · exact fun c member _ => digits c member

/-- In a numeral a dash stands only behind the mark of an exponent. -/
theorem getLast?_of_unsigned? {front back : List Char}
    (read : (Number.unsigned? (front ++ '-' :: back)).isSome = true) :
    front.getLast? = some 'e' ∨ front.getLast? = some 'E' := by
  have no_dash {ds : List Char} (digits : ∀ c ∈ ds, isDigit c = true) : '-' ∉ ds :=
    fun member => absurd (digits '-' member) (by decide)
  obtain ⟨mantissa, tail, same, plain, exponent⟩ := exists_of_unsigned? read
  have free : '-' ∉ mantissa := fun member => absurd (plain '-' member) (by decide)
  have dash : '-' ∈ mantissa ++ tail := same ▸ List.mem_append_right _ List.mem_cons_self
  cases exponent with
  | none => exact absurd (by simpa using dash) free
  | @digits mark sign ds marked signed _ digits =>
    have no_mark : '-' ∉ [mark] := by obtain rfl | rfl := marked <;> decide
    have other : '-' ∉ mantissa ++ [mark] := by
      rw [List.mem_append, not_or]
      exact ⟨free, no_mark⟩
    obtain rfl | rfl | rfl := signed
    · simp [free, no_dash digits, List.mem_singleton.not.mp no_mark] at dash
    · simp [free, no_dash digits, List.mem_singleton.not.mp no_mark] at dash
    · have apart : (mantissa ++ [mark]) ++ '-' :: ds = front ++ '-' :: back := by
        rw [same, List.append_assoc]
        rfl
      obtain ⟨rfl, -, -⟩ := (List.append_cons_inj_of_notMem other (no_dash digits)).mp apart
      rw [List.getLast?_concat]
      exact marked.imp (congrArg some) (congrArg some)

theorem getLast?_of_isNumber (number : IsNumber isScriptDigit n) :
    ∀ c ∈ n.getLast?, isScriptDigit c = true := by
  have last_digit {ds : List Char} (some_digit : ds ≠ [])
      (digits : ∀ d ∈ ds, isScriptDigit d = true) (front : List Char) :
      ∀ c ∈ (front ++ ds).getLast?, isScriptDigit c = true := by
    rw [List.getLast?_append_of_ne_nil _ some_digit]
    exact fun c last => digits c (List.mem_of_getLast? last)
  cases number with
  | @mk minus whole point tail signed is_whole fraction exponent =>
    cases exponent with
    | @digits mark sign ds marked signed some_digit digits =>
      have same : minus ++ (whole ++ point ++ mark :: (sign ++ ds)) =
        (minus ++ (whole ++ point ++ mark :: sign)) ++ ds := by simp
      rw [same]
      exact last_digit some_digit digits _
    | none =>
      cases fraction with
      | @digits ds some_digit digits =>
        have same : minus ++ (whole ++ '.' :: ds ++ []) = (minus ++ (whole ++ ['.'])) ++ ds := by
          simp
        rw [same]
        exact last_digit some_digit digits _
      | none =>
        rw [List.append_nil, List.append_nil]
        obtain ⟨some_digit, digits⟩ := digits_of_isWhole is_whole
        exact last_digit some_digit digits _

/-- A number part has a value exactly if it is a single number in ASCII. -/
theorem isSome_readChars?_iff (part : IsNumberPart n) :
    (Number.readChars? n).isSome = true ↔ IsNumber isDigit n := by
  constructor
  · intro read
    rw [(beginsNumber_of_isNumberPart part).readChars?_eq, Option.isSome_map] at read
    cases part with
    | one number =>
      refine number.of_forall ?_
      obtain ⟨c, tail, rfl | rfl, digit⟩ := beginsNumber_of_isNumber number
      · rw [Number.takeSign_of_digit digit] at read
        exact isDigit_of_unsigned? read
      · exact List.forall_mem_cons.mpr ⟨fun script => absurd script (by decide),
          isDigit_of_unsigned? read⟩
    | @more m ns number =>
      -- The dash of a range follows a digit.
      have last : m.getLast? = some 'e' ∨ m.getLast? = some 'E' := by
        obtain ⟨c, tail, rfl | rfl, digit⟩ := beginsNumber_of_isNumber number
        · rw [List.cons_append, Number.takeSign_of_digit digit] at read
          exact getLast?_of_unsigned? read
        · rw [List.getLast?_cons_cons]
          exact getLast?_of_unsigned? read
      have digit := getLast?_of_isNumber number
      obtain last | last := last
      · exact absurd (digit 'e' last) (by decide)
      · exact absurd (digit 'E' last) (by decide)
  · intro number
    obtain ⟨l, parts⟩ := Option.isSome_iff_exists.mp (isLiteral_iff.mpr number)
    rw [Json.readChars?_of_parts? parts]
    rfl

end

end FermiQuiz.Sheet
