import Mathlib
import FermiQuiz.Sheet.Entry
import FermiQuiz.Proofs.Number.Numeral

/-!
# The numbers of entries

What a number is, with digits of any script, and what a number part is: numbers with dashes between
them. The reader takes a number part, and no longer one stands at the start of the text.
-/

namespace FermiQuiz.Sheet

open Text (isBlank isScriptDigit)

/-! ### Grammar -/

section

variable (digit : Char → Bool)

inductive IsWhole : List Char → Prop
  | zero : IsWhole ['0']
  | digits {c : Char} {ds : List Char} (first : '1' ≤ c ∧ c ≤ '9')
      (rest : ∀ d ∈ ds, digit d = true) : IsWhole (c :: ds)

inductive IsFraction : List Char → Prop
  | none : IsFraction []
  | digits {ds : List Char} (some_digit : ds ≠ []) (digits : ∀ d ∈ ds, digit d = true) :
      IsFraction ('.' :: ds)

inductive IsExponent : List Char → Prop
  | none : IsExponent []
  | digits {mark : Char} {sign ds : List Char} (marked : mark = 'e' ∨ mark = 'E')
      (signed : sign = [] ∨ sign = ['+'] ∨ sign = ['-']) (some_digit : ds ≠ [])
      (digits : ∀ d ∈ ds, digit d = true) : IsExponent (mark :: (sign ++ ds))

/-- A decimal number, the digits of which are those that `digit` accepts, but that the first is
one of ASCII. -/
inductive IsNumber : List Char → Prop
  | mk {minus whole point tail : List Char} (signed : minus = [] ∨ minus = ['-'])
      (digits : IsWhole digit whole) (fraction : IsFraction digit point)
      (exponent : IsExponent digit tail) : IsNumber (minus ++ (whole ++ point ++ tail))

end

/-- Numbers with dashes between them, with digits of any script. -/
inductive IsNumberPart : List Char → Prop
  | one {n : List Char} (number : IsNumber isScriptDigit n) : IsNumberPart n
  | more {n ns : List Char} (number : IsNumber isScriptDigit n) (rest : IsNumberPart ns) :
      IsNumberPart (n ++ '-' :: ns)

/-! ### What is taken is a number -/

section

variable {cs n rest : List Char}

theorem isWhole_of_takeWhole? (taken : takeWhole? cs = some (n, rest)) :
    IsWhole isScriptDigit n := by
  cases cs with
  | nil => cases taken
  | cons c cs =>
    rw [takeWhole?] at taken
    split at taken
    · cases taken
      exact .zero
    · split at taken
      · next between =>
        rw [Bool.and_eq_true, decide_eq_true_eq, decide_eq_true_eq] at between
        cases taken
        exact .digits between fun _ => List.mem_takeWhile_imp
      · cases taken

theorem isFraction_takeFraction (cs : List Char) :
    IsFraction isScriptDigit (takeFraction cs).1 := by
  unfold takeFraction
  split
  · split
    · exact .none
    · next some_digit =>
      exact .digits (by simpa using some_digit) fun _ => List.mem_takeWhile_imp
  · exact .none

theorem takeSign_cases (cs : List Char) :
    (takeSign cs).1 = [] ∨ (takeSign cs).1 = ['+'] ∨ (takeSign cs).1 = ['-'] := by
  unfold takeSign
  split <;> simp

theorem isExponent_takeExponent (cs : List Char) :
    IsExponent isScriptDigit (takeExponent cs).1 := by
  unfold takeExponent
  split
  · exact .none
  · split
    · next mark =>
      rw [Bool.or_eq_true, decide_eq_true_eq, decide_eq_true_eq] at mark
      dsimp only
      split
      · exact .none
      · next some_digit =>
        exact .digits mark (takeSign_cases _) (by simpa using some_digit)
          fun _ => List.mem_takeWhile_imp
    · exact .none

theorem takeMinus_cases (cs : List Char) : (takeMinus cs).1 = [] ∨ (takeMinus cs).1 = ['-'] := by
  unfold takeMinus
  split <;> simp

theorem isNumber_of_takeNumber? (taken : takeNumber? cs = some (n, rest)) :
    IsNumber isScriptDigit n := by
  simp only [takeNumber?] at taken
  split at taken
  · cases taken
  · next whole after found =>
    cases taken
    rw [List.append_assoc, List.append_assoc, ← List.append_assoc whole]
    exact .mk (takeMinus_cases cs) (isWhole_of_takeWhole? found) (isFraction_takeFraction after)
      (isExponent_takeExponent _)

theorem takeMore_of_some {ns : List Char} (taken : takeNumbers? cs = some (ns, rest)) :
    takeMore ('-' :: cs) = ('-' :: ns, rest) := by
  unfold takeNumbers? at taken
  rw [takeMore]
  split
  · next none =>
    rw [none] at taken
    cases taken
  · next number after found =>
    rw [found] at taken
    cases taken
    rfl

theorem takeMore_of_none (none_taken : takeNumbers? cs = none) :
    takeMore ('-' :: cs) = ([], '-' :: cs) := by
  unfold takeNumbers? at none_taken
  rw [takeMore]
  split
  · rfl
  · next found =>
    rw [found] at none_taken
    cases none_taken

theorem takeMore_of_head (other : ∀ c ∈ cs.head?, c ≠ '-') : takeMore cs = ([], cs) := by
  unfold takeMore
  split
  · exact absurd rfl (other '-' rfl)
  · rfl

theorem isNumberPart_of_takeNumbers? (taken : takeNumbers? cs = some (n, rest)) :
    IsNumberPart n := by
  -- What is left after the first number and a dash is shorter than the text.
  induction size : cs.length using Nat.strong_induction_on generalizing cs n rest with
  | _ size ih =>
    unfold takeNumbers? at taken
    split at taken
    · cases taken
    · next number after found =>
      have first := isNumber_of_takeNumber? found
      have shorter := takeNumber?_length found
      cases taken
      by_cases dash : ∃ after', after = '-' :: after'
      · obtain ⟨after', rfl⟩ := dash
        cases more : takeNumbers? after' with
        | none =>
          rw [takeMore_of_none more, List.append_nil]
          exact .one first
        | some ns =>
          rw [takeMore_of_some more]
          refine .more first (ih _ ?_ more rfl)
          rw [List.length_cons] at shorter
          omega
      · rw [takeMore_of_head, List.append_nil]
        · exact .one first
        · intro c head same
          rw [Option.mem_def, List.head?_eq_some_iff] at head
          obtain ⟨after', rfl⟩ := head
          exact dash ⟨after', by rw [same]⟩

end

/-! ### No longer one stands at the start -/

/-- All of `n` is taken, and of the rest a part that is empty or begins in one way. -/
def Farther (begins : Char → Prop) (n rest : List Char) (taken : List Char × List Char) : Prop :=
  ∃ more, taken.1 = n ++ more ∧ rest = more ++ taken.2 ∧ ∀ c ∈ more.head?, begins c

section

variable {n next rest : List Char} {taken : List Char × List Char} {p q : Char → Prop}

theorem Farther.mono (farther : Farther p n rest taken) (weaker : ∀ c, p c → q c) :
    Farther q n rest taken := by
  obtain ⟨more, same, left, begins⟩ := farther
  exact ⟨more, same, left, fun c head => weaker c (begins c head)⟩

/-- Where more than a part is taken, the next one, which begins in another way, is empty. -/
theorem Farther.append {taking : List Char → List Char × List Char} {Is : List Char → Prop}
    (farther : Farther p n (next ++ rest) taken) (apart : ∀ c ∈ next.head?, ¬ p c)
    (take : ∀ {n}, Is n → ∀ rest, Farther q n rest (taking (n ++ rest))) (empty : Is [])
    (is_next : Is next) :
    Farther (fun c => p c ∨ q c) (n ++ next) rest
      (taken.1 ++ (taking taken.2).1, (taking taken.2).2) := by
  obtain ⟨more, same, left, begins⟩ := farther
  rw [same]
  cases more with
  | nil =>
    rw [List.nil_append] at left
    rw [List.append_nil, ← left]
    obtain ⟨more, same, left, begins⟩ := take is_next rest
    exact ⟨more, by rw [same, List.append_assoc], left, fun c head => Or.inr (begins c head)⟩
  | cons c more =>
    cases next with
    | cons d next =>
      obtain rfl : d = c := (List.cons.inj left).1
      exact absurd (begins d rfl) (apart d rfl)
    | nil =>
      obtain ⟨more', same', left', -⟩ := take empty taken.2
      simp only [List.nil_append] at same' left' left
      refine ⟨c :: more ++ more', ?_, ?_, ?_⟩
      · rw [same', List.append_nil, List.append_assoc]
      · rw [List.append_assoc, ← left', left]
      · rintro d ⟨⟩
        exact Or.inl (begins c rfl)

theorem farther_takeWhile (p : Char → Bool) (digits : ∀ c ∈ n, p c = true) (rest : List Char) :
    Farther (p · = true) n rest ((n ++ rest).takeWhile p, (n ++ rest).dropWhile p) := by
  rw [List.takeWhile_append_of_pos digits, List.dropWhile_append_of_pos digits]
  exact ⟨rest.takeWhile p, rfl, List.takeWhile_append_dropWhile.symm,
    fun c head => List.mem_takeWhile_imp (List.mem_of_head? head)⟩

theorem Farther.append_left (farther : Farther p n rest taken) (front : List Char) :
    Farther p (front ++ n) rest (front ++ taken.1, taken.2) := by
  obtain ⟨more, same, left, begins⟩ := farther
  exact ⟨more, by rw [same, List.append_assoc], left, begins⟩

theorem isScriptDigit_of_isDigit {c : Char} (digit : Number.isDigit c = true) :
    isScriptDigit c = true := by
  rw [Number.isDigit_iff] at digit
  refine List.any_eq_true.mpr ⟨(0x30, 0x39), List.mem_cons_self, ?_⟩
  simpa using digit

theorem digits_of_isWhole (digits : IsWhole isScriptDigit n) :
    n ≠ [] ∧ ∀ c ∈ n, isScriptDigit c = true := by
  cases digits with
  | zero => exact ⟨List.cons_ne_nil _ _, List.forall_mem_singleton.mpr (by decide)⟩
  | @digits c ds first digits =>
    have least : 49 ≤ c.toNat := first.1
    have digit := isScriptDigit_of_isDigit (Number.isDigit_iff.mpr ⟨by omega, first.2⟩)
    exact ⟨List.cons_ne_nil _ _, List.forall_mem_cons.mpr ⟨digit, digits⟩⟩

theorem takeWhole?_of_isWhole (digits : IsWhole isScriptDigit n) (rest : List Char) :
    ∃ taken, takeWhole? (n ++ rest) = some taken ∧
      Farther (isScriptDigit · = true) n rest taken := by
  cases digits with
  | zero => exact ⟨_, rfl, [], rfl, rfl, by rintro c ⟨⟩⟩
  | @digits c ds first digits =>
    have nonzero : c ≠ '0' := by
      rintro rfl
      exact absurd first.1 (by decide)
    have between : ('1' ≤ c && c ≤ '9') = true := by
      rw [Bool.and_eq_true, decide_eq_true_eq, decide_eq_true_eq]
      exact first
    refine ⟨_, ?_, (farther_takeWhile isScriptDigit digits rest).append_left [c]⟩
    rw [List.cons_append, takeWhole?, if_neg nonzero, if_pos between]
    rfl

theorem head_of_isFraction (fraction : IsFraction isScriptDigit n) : ∀ c ∈ n.head?, c = '.' := by
  cases fraction with
  | none => rintro c ⟨⟩
  | digits => rintro c ⟨⟩; rfl

theorem head_of_isExponent (exponent : IsExponent isScriptDigit n) :
    ∀ c ∈ n.head?, c = 'e' ∨ c = 'E' := by
  cases exponent with
  | none => rintro c ⟨⟩
  | digits marked => rintro c ⟨⟩; exact marked

theorem takeFraction_of_isFraction (fraction : IsFraction isScriptDigit n) (rest : List Char) :
    Farther (fun c => isScriptDigit c = true ∨ c = '.') n rest (takeFraction (n ++ rest)) := by
  cases fraction with
  | none =>
    exact ⟨_, rfl, (takeFraction_append rest).symm,
      fun c head => Or.inr (head_of_isFraction (isFraction_takeFraction rest) c head)⟩
  | @digits ds some_digit digits =>
    have farther := (farther_takeWhile isScriptDigit digits rest).append_left ['.']
    have filled : ((ds ++ rest).takeWhile isScriptDigit).isEmpty = false := by
      rw [List.takeWhile_append_of_pos digits]
      simp [some_digit]
    simp only [List.cons_append, takeFraction, filled]
    exact farther.mono fun c => Or.inl

theorem takeSign_of_digits {sign cs : List Char}
    (signed : sign = [] ∨ sign = ['+'] ∨ sign = ['-'])
    (digit : ∀ c ∈ cs.head?, isScriptDigit c = true) : takeSign (sign ++ cs) = (sign, cs) := by
  obtain rfl | rfl | rfl := signed
  · unfold takeSign
    split
    · next same =>
      rw [List.nil_append] at same
      exact absurd (digit '+' (by rw [same]; rfl)) (by decide)
    · next same =>
      rw [List.nil_append] at same
      exact absurd (digit '-' (by rw [same]; rfl)) (by decide)
    · rfl
  · rfl
  · rfl

theorem takeExponent_of_isExponent (exponent : IsExponent isScriptDigit n) (rest : List Char) :
    Farther (fun c => isScriptDigit c = true ∨ c = 'e' ∨ c = 'E') n rest
      (takeExponent (n ++ rest)) := by
  cases exponent with
  | none =>
    exact ⟨_, rfl, (takeExponent_append rest).symm,
      fun c head => Or.inr (head_of_isExponent (isExponent_takeExponent rest) c head)⟩
  | @digits mark sign ds marked signed some_digit digits =>
    have farther := (farther_takeWhile isScriptDigit digits rest).append_left (mark :: sign)
    have filled : ((ds ++ rest).takeWhile isScriptDigit).isEmpty = false := by
      rw [List.takeWhile_append_of_pos digits]
      simp [some_digit]
    have after_sign : takeSign (sign ++ (ds ++ rest)) = (sign, ds ++ rest) := by
      refine takeSign_of_digits signed ?_
      obtain ⟨d, ds, rfl⟩ := List.exists_cons_of_ne_nil some_digit
      rintro c ⟨⟩
      exact digits d List.mem_cons_self
    have is_mark : (mark = 'e' || mark = 'E') = true := by simpa using marked
    simp only [List.cons_append, List.append_assoc, takeExponent, is_mark, after_sign, filled]
    exact farther.mono fun c => Or.inl

theorem takeMinus_of_head {minus cs : List Char} (signed : minus = [] ∨ minus = ['-'])
    (other : ∀ c ∈ cs.head?, c ≠ '-') : takeMinus (minus ++ cs) = (minus, cs) := by
  obtain rfl | rfl := signed
  · unfold takeMinus
    split
    · next same =>
      rw [List.nil_append] at same
      exact absurd rfl (other '-' (by rw [same]; rfl))
    · rfl
  · rfl

/-- What may come after a number in a longer one. -/
def GoesOn (c : Char) : Prop := isScriptDigit c = true ∨ c = '.' ∨ c = 'e' ∨ c = 'E'

theorem takeNumber?_of_isNumber (number : IsNumber isScriptDigit n) (rest : List Char) :
    ∃ taken, takeNumber? (n ++ rest) = some taken ∧ Farther GoesOn n rest taken := by
  cases number with
  | @mk minus whole point tail signed digits fraction exponent =>
    obtain ⟨taken, found, farther⟩ := takeWhole?_of_isWhole digits (point ++ (tail ++ rest))
    -- Neither a point nor the mark of an exponent goes on with the digits before it.
    have point_apart : ∀ c ∈ point.head?, ¬ isScriptDigit c = true := by
      intro c head
      rw [head_of_isFraction fraction c head]
      decide
    have with_fraction :=
      farther.append point_apart takeFraction_of_isFraction .none fraction
    have mark_apart : ∀ c ∈ tail.head?,
        ¬ (isScriptDigit c = true ∨ isScriptDigit c = true ∨ c = '.') := by
      intro c head
      obtain rfl | rfl := head_of_isExponent exponent c head <;> decide
    have with_exponent :=
      with_fraction.append mark_apart takeExponent_of_isExponent .none exponent
    have after_minus : takeMinus (minus ++ (whole ++ (point ++ (tail ++ rest)))) =
        (minus, whole ++ (point ++ (tail ++ rest))) := by
      refine takeMinus_of_head signed fun c head same => ?_
      obtain ⟨some_digit, all⟩ := digits_of_isWhole digits
      rw [same, List.head?_append_of_ne_nil _ some_digit] at head
      exact absurd (all '-' (List.mem_of_head? head)) (by decide)
    refine ⟨_, ?_, (with_exponent.append_left minus).mono ?_⟩
    · simp only [takeNumber?, List.append_assoc, after_minus, found]
    · rintro c ((digit | digit | rfl) | digit | mark)
      · exact Or.inl digit
      · exact Or.inl digit
      · exact Or.inr (Or.inl rfl)
      · exact Or.inl digit
      · exact Or.inr (Or.inr mark)

theorem takeMore_append (cs : List Char) : (takeMore cs).1 ++ (takeMore cs).2 = cs := by
  induction cs using takeMore.induct with
  | case1 rest found =>
    rw [takeMore]
    split
    · rfl
    · next found' =>
      rw [found] at found'
      cases found'
  | case2 rest number after found _ _ _ _ ih =>
    obtain ⟨apart, -⟩ := takeNumber?_append found
    rw [takeMore]
    split
    · rfl
    · next number' after' found' =>
      rw [found] at found'
      cases found'
      dsimp only
      rw [List.cons_append, List.cons_append, List.append_assoc, ih, apart]
  | case3 cs other =>
    unfold takeMore
    split
    · exact absurd rfl (other _)
    · rfl

theorem takeNumbers?_of_isNumberPart (part : IsNumberPart n) (rest : List Char) :
    ∃ more after, takeNumbers? (n ++ rest) = some (n ++ more, after) ∧ rest = more ++ after := by
  induction part with
  | one number =>
    obtain ⟨taken, found, more, same, left, -⟩ := takeNumber?_of_isNumber number rest
    refine ⟨more ++ (takeMore taken.2).1, (takeMore taken.2).2, ?_, ?_⟩
    · rw [takeNumbers?, found]
      dsimp only
      rw [same, List.append_assoc]
    · rw [List.append_assoc, takeMore_append, ← left]
  | @more n ns number _ ih =>
    obtain ⟨taken, found, more, same, left, begins⟩ :=
      takeNumber?_of_isNumber number ('-' :: (ns ++ rest))
    obtain ⟨more', after, found', left'⟩ := ih
    cases more with
    | cons c more =>
      obtain rfl : '-' = c := (List.cons.inj left).1
      exact absurd (begins '-' rfl) (by unfold GoesOn; decide)
    | nil =>
      rw [List.append_nil] at same
      rw [List.nil_append] at left
      refine ⟨more', after, ?_, left'⟩
      rw [List.append_assoc, List.cons_append, takeNumbers?, found]
      dsimp only
      rw [same, ← left, takeMore_of_some found', List.append_assoc]
      rfl

end

/-! ### The characters of a number -/

theorem isBlank_of_isScriptDigit {c : Char} (digit : isScriptDigit c = true) :
    isBlank c = false := by
  have apart : ∀ r ∈ Text.digitRanges, ∀ s ∈ Text.blankRanges, r.2 < s.1 ∨ s.2 < r.1 := by decide
  obtain ⟨r, is_range, inside⟩ := List.any_eq_true.mp digit
  refine List.any_eq_false.mpr fun s is_blanks inside' => ?_
  have := apart r is_range s is_blanks
  simp only [Bool.and_eq_true, decide_eq_true_eq] at inside inside'
  omega

/-- What numbers are written with. -/
def IsNumberSign (c : Char) : Prop := isScriptDigit c = true ∨ c ∈ ['-', '+', '.', 'e', 'E']

theorem isNumberSign_of_isFraction {n : List Char} (fraction : IsFraction isScriptDigit n) :
    ∀ c ∈ n, IsNumberSign c := by
  cases fraction with
  | none => exact List.forall_mem_nil _
  | digits _ digits =>
    exact List.forall_mem_cons.mpr ⟨Or.inr (by simp), fun c member => Or.inl (digits c member)⟩

theorem isNumberSign_of_isExponent {n : List Char} (exponent : IsExponent isScriptDigit n) :
    ∀ c ∈ n, IsNumberSign c := by
  cases exponent with
  | none => exact List.forall_mem_nil _
  | digits marked signed _ digits =>
    refine List.forall_mem_cons.mpr ⟨Or.inr ?_, List.forall_mem_append.mpr ⟨?_, ?_⟩⟩
    · obtain rfl | rfl := marked <;> simp
    · obtain rfl | rfl | rfl := signed <;> simp [IsNumberSign]
    · exact fun c member => Or.inl (digits c member)

theorem isNumberSign_of_isNumber {n : List Char} (number : IsNumber isScriptDigit n) :
    ∀ c ∈ n, IsNumberSign c := by
  cases number with
  | mk signed digits fraction exponent =>
    simp only [List.forall_mem_append]
    refine ⟨?_, ⟨fun c member => Or.inl ((digits_of_isWhole digits).2 c member),
      isNumberSign_of_isFraction fraction⟩,
      isNumberSign_of_isExponent exponent⟩
    obtain rfl | rfl := signed <;> simp [IsNumberSign]

theorem isNumberSign_of_isNumberPart {n : List Char} (part : IsNumberPart n) :
    ∀ c ∈ n, IsNumberSign c := by
  induction part with
  | one number => exact isNumberSign_of_isNumber number
  | more number _ ih =>
    intro c member
    obtain member | member := List.mem_append.mp member
    · exact isNumberSign_of_isNumber number c member
    · obtain rfl | member := List.mem_cons.mp member
      · exact Or.inr (by simp)
      · exact ih c member

theorem isBlank_of_isNumberSign {c : Char} (sign : IsNumberSign c) : isBlank c = false := by
  obtain digit | sign := sign
  · exact isBlank_of_isScriptDigit digit
  · fin_cases sign <;> decide

theorem ne_of_isNumberSign {c : Char} (sign : IsNumberSign c) : c ≠ '(' ∧ c ≠ ':' := by
  constructor
  · rintro rfl
    exact absurd sign (by unfold IsNumberSign; decide)
  · rintro rfl
    exact absurd sign (by unfold IsNumberSign; decide)

end FermiQuiz.Sheet
