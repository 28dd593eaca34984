import Mathlib
import FermiQuiz.Json.Reader
import FermiQuiz.Proofs.Json.Literal

/-!
# Documents that are written

A value whose numbers are literals and whose texts are spelled as they are written is read back from
its written form. The scanner finds the tokens of the value in it, whatever layout is between them,
and the builder makes the value of its tokens.
-/

namespace FermiQuiz

/-! ### Values that can be written -/

namespace Json

/-- Its numbers are literals, and its texts and keys are spelled. -/
inductive WellSpelled : Json → Prop
  | null : WellSpelled .null
  | bool (b : Bool) : WellSpelled (.bool b)
  | number {cs : List Char} (literal : isLiteral cs = true) : WellSpelled (.number cs)
  | string (cs : List Char) : WellSpelled (.string (escape cs))
  | array {items : List Json} (each : ∀ v ∈ items, WellSpelled v) : WellSpelled (.array items)
  | object {fields : List (List Char × Json)} (keys : ∀ f ∈ fields, ∃ cs, f.1 = escape cs)
      (each : ∀ f ∈ fields, WellSpelled f.2) : WellSpelled (.object fields)

mutual

def tokens : Json → List Token
  | null => [.word ['n', 'u', 'l', 'l']]
  | bool true => [.word ['t', 'r', 'u', 'e']]
  | bool false => [.word ['f', 'a', 'l', 's', 'e']]
  | number literal => [.number literal]
  | string body => [.string body]
  | array items => .openArray :: itemTokens items ++ [.closeArray]
  | object fields => .openObject :: fieldTokens fields ++ [.closeObject]

def itemTokens : List Json → List Token
  | [] => []
  | [v] => v.tokens
  | v :: vs => v.tokens ++ .comma :: itemTokens vs

def fieldTokens : List (List Char × Json) → List Token
  | [] => []
  | [(key, v)] => .string key :: .colon :: v.tokens
  | (key, v) :: rest => .string key :: .colon :: v.tokens ++ .comma :: fieldTokens rest

end

/-! ### Scanning -/

/-- What may follow a word or a number: something that would not be a part of it. -/
def Closes (rest : List Char) : Prop :=
  ∀ c ∈ rest.head?, isNumberChar c = false ∧ isLetter c = false

theorem closes_nil : Closes [] := by
  intro c h
  cases h

theorem closes_cons {c : Char} (number : isNumberChar c = false) (letter : isLetter c = false)
    (rest : List Char) : Closes (c :: rest) := by
  intro d h
  cases h
  exact ⟨number, letter⟩

theorem closes_lineBreak (level : ℕ) (rest : List Char) : Closes (lineBreak level ++ rest) :=
  closes_cons (by decide) (by decide) _

theorem scanFrom?_ended {mode : Mode} {t : Token} {found : List Token} {rest : List Char}
    (ends : finish? mode = some [t])
    (stops : ∀ c ∈ rest.head?, scanChar? mode c = (begin? c).map fun (token, mode) =>
      (token.toList ++ [t], mode)) :
    scanFrom? mode found rest = scanFrom? .between (t :: found) rest := by
  cases rest with
  | nil => rw [scanFrom?, ends, scanFrom?, finish?, Option.map_some, Option.map_some]; rfl
  | cons c cs =>
    have stop := stops c rfl
    rw [scanFrom?, scanFrom?, stop]
    cases begun : begin? c with
    | none => simp [scanChar?, finish?, begun]
    | some next => simp [scanChar?, finish?, begun]

theorem scanFrom?_mark {c : Char} {t : Token} (mark : begin? c = some (some t, .between))
    (found : List Token) (rest : List Char) :
    scanFrom? .between found (c :: rest) = scanFrom? .between (t :: found) rest := by
  have one : scanChar? .between c = some ([t], .between) := by simp [scanChar?, finish?, mark]
  rw [scanFrom?, one]
  rfl

theorem scanFrom?_word {seen : List Char} {found : List Token} {rest : List Char}
    (closes : Closes rest) : scanFrom? (.word seen) found rest =
      scanFrom? .between (.word seen.reverse :: found) rest := by
  refine scanFrom?_ended rfl fun c first => ?_
  have letter := (closes c first).2
  simp only [scanChar?, letter, Bool.false_eq_true, if_false, finish?]
  cases begin? c <;> rfl

theorem scanFrom?_number {seen : List Char} {found : List Token} {rest : List Char}
    (literal : isLiteral seen.reverse = true) (closes : Closes rest) :
    scanFrom? (.number seen) found rest =
      scanFrom? .between (.number seen.reverse :: found) rest := by
  refine scanFrom?_ended (by rw [finish?, if_pos literal]) fun c first => ?_
  have number := (closes c first).1
  simp only [scanChar?, number, Bool.false_eq_true, if_false, finish?, literal, if_true]
  cases begin? c <;> rfl

theorem scanFrom?_numberChars {cs seen : List Char} {found : List Token} (rest : List Char)
    (chars : ∀ c ∈ cs, isNumberChar c = true) :
    scanFrom? (.number seen) found (cs ++ rest) =
      scanFrom? (.number (cs.reverse ++ seen)) found rest := by
  induction cs generalizing seen with
  | nil => rfl
  | cons c cs ih =>
    have first := chars c List.mem_cons_self
    rw [List.cons_append, scanFrom?, scanChar?, if_pos first]
    dsimp only
    rw [List.nil_append, ih fun d member => chars d (List.mem_cons_of_mem c member),
      List.reverse_cons, List.append_assoc]
    rfl

theorem isNumberChar_of_isDigit {c : Char} (h : Number.isDigit c = true) :
    isNumberChar c = true := by
  simp [isNumberChar, h]

theorem isNumberChar_of_exponent? {cs : List Char} {x : Option (Bool × List Char)}
    (h : exponent? cs = some x) : ∀ c ∈ cs, isNumberChar c = true := by
  cases cs with
  | nil => simp
  | cons c cs =>
    rw [exponent?_cons] at h
    split at h
    · next mark =>
      split at h
      · cases h
      · next proper =>
        have digits : ∀ d ∈ (Number.takeSign cs).2, isNumberChar d = true := by
          intro d member
          simp only [Bool.or_eq_true, Bool.not_eq_true', not_or, Bool.not_eq_false,
            List.all_eq_true] at proper
          exact isNumberChar_of_isDigit (proper.2 d member)
        have sign : ∀ d ∈ cs, isNumberChar d = true := by
          unfold Number.takeSign at digits
          split at digits
          · exact List.forall_mem_cons.mpr ⟨by decide, digits⟩
          · exact List.forall_mem_cons.mpr ⟨by decide, digits⟩
          · exact digits
        refine List.forall_mem_cons.mpr ⟨?_, sign⟩
        simp only [Bool.or_eq_true, decide_eq_true_eq] at mark
        rcases mark with rfl | rfl <;> decide
    · cases h

/-- All characters of a literal are those of numbers, and it starts as a number does. -/
theorem Spells.chars {l : Literal} {cs rest : List Char} (h : Spells l cs rest) :
    (∀ c ∈ cs, isNumberChar c = true) ∧
      ∃ c tail, cs = c :: tail ∧ (c = '-' || Number.isDigit c) = true := by
  have digits : ∀ ds : List Char, ∀ c ∈ ds.takeWhile Number.isDigit, isNumberChar c = true :=
    fun ds c member => isNumberChar_of_isDigit (List.mem_takeWhile_imp member)
  have after_whole : ∀ c ∈ rest.dropWhile Number.isDigit, isNumberChar c = true := by
    obtain ⟨after, pointed, -, exponent⟩ | ⟨-, -, exponent⟩ := h.tail
    · rw [pointed, ← List.takeWhile_append_dropWhile (p := Number.isDigit) (l := after)]
      refine List.forall_mem_cons.mpr ⟨by decide, fun c member => ?_⟩
      rcases List.mem_append.mp member with member | member
      · exact digits after c member
      · exact isNumberChar_of_exponent? exponent c member
    · exact isNumberChar_of_exponent? exponent
  have all : ∀ c ∈ rest, isNumberChar c = true := by
    intro c member
    rw [← List.takeWhile_append_dropWhile (p := Number.isDigit) (l := rest)] at member
    rcases List.mem_append.mp member with member | member
    · exact digits rest c member
    · exact after_whole c member
  obtain ⟨c, tail, rest_eq, digit⟩ := h.exists_digit
  rw [h.sign]
  cases l.negative
  · exact ⟨all, c, tail, rest_eq, by simp [digit]⟩
  · exact ⟨List.forall_mem_cons.mpr ⟨by decide, all⟩, '-', rest, rfl, rfl⟩

theorem begin?_of_number {c : Char} (h : (c = '-' || Number.isDigit c) = true) :
    begin? c = some (none, .number [c]) := by
  have other : c = '-' ∨ (48 ≤ c.toNat ∧ c.toNat ≤ 57) := by
    rwa [Bool.or_eq_true, decide_eq_true_eq, Number.isDigit_iff] at h
  -- No layout, mark or quote is a digit or a minus sign.
  have ne (d : Char) (far : d.toNat ≠ 45 ∧ (d.toNat < 48 ∨ 57 < d.toNat)) : c ≠ d := by
    rintro rfl
    rcases other with rfl | bounds
    · exact far.1 rfl
    · omega
  unfold begin? isLayout
  simp only [ne ' ' (by decide), ne '\n' (by decide), ne '\t' (by decide), ne '\r' (by decide),
    ne '[' (by decide), ne ']' (by decide), ne '{' (by decide), ne '}' (by decide),
    ne ':' (by decide), ne ',' (by decide), ne '"' (by decide), h, decide_false, Bool.or_self,
    Bool.false_eq_true, if_false, if_true]

theorem scanFrom?_literal {cs : List Char} (literal : isLiteral cs = true) {found : List Token}
    {rest : List Char} (closes : Closes rest) : scanFrom? .between found (cs ++ rest) =
      scanFrom? .between (.number cs :: found) rest := by
  obtain ⟨l, parts⟩ := Option.isSome_iff_exists.mp literal
  obtain ⟨unsigned, spells⟩ := exists_spells parts
  obtain ⟨chars, c, tail, rfl, first⟩ := spells.chars
  have start : scanChar? .between c = some ([], .number [c]) := by
    simp [scanChar?, finish?, begin?_of_number first]
  have back : (tail.reverse ++ [c]).reverse = c :: tail := by simp
  rw [List.cons_append, scanFrom?, start]
  dsimp only
  rw [List.nil_append, scanFrom?_numberChars rest fun d member =>
    chars d (List.mem_cons_of_mem c member), scanFrom?_number (by rwa [back]) closes, back]

theorem scanFrom?_escapeChar (c : Char) (seen : List Char) (found : List Token)
    (rest : List Char) : scanFrom? (.string seen .none) found (escapeChar c ++ rest) =
      scanFrom? (.string ((escapeChar c).reverse ++ seen) .none) found rest := by
  have digits : ∀ n < 32, (Number.hexDigit? (Nat.digitChar (n / 16))).isSome = true ∧
      (Number.hexDigit? (Nat.digitChar (n % 16))).isSome = true := by decide
  unfold escapeChar
  split_ifs with quote slash line return_ tab back feed small
  · rfl
  · rfl
  · rfl
  · rfl
  · rfl
  · rfl
  · rfl
  · obtain ⟨upper, lower⟩ := digits c.toNat small
    have zero : (Number.hexDigit? '0').isSome = true := rfl
    simp [scanFrom?, scanChar?, inString?, upper, lower, zero]
  · simp [scanFrom?, scanChar?, inString?, quote, slash, small]

theorem scanFrom?_escape (cs seen : List Char) (found : List Token) (rest : List Char) :
    scanFrom? (.string seen .none) found (escape cs ++ rest) =
      scanFrom? (.string ((escape cs).reverse ++ seen) .none) found rest := by
  induction cs generalizing seen with
  | nil => rfl
  | cons c cs ih =>
    rw [escape, List.flatMap_cons, List.append_assoc, scanFrom?_escapeChar, List.reverse_append,
      List.append_assoc]
    exact ih _

theorem scanFrom?_quote (cs : List Char) (found : List Token) (rest : List Char) :
    scanFrom? .between found (quote (escape cs) ++ rest) =
      scanFrom? .between (.string (escape cs) :: found) rest := by
  have opened : scanFrom? .between found (quote (escape cs) ++ rest) =
      scanFrom? (.string [] .none) found (escape cs ++ ('"' :: rest)) := by
    rw [quote, List.cons_append, List.cons_append, List.append_assoc]
    rfl
  rw [opened, scanFrom?_escape, scanFrom?, scanChar?, inString?]
  simp

theorem scanFrom?_lineBreak (level : ℕ) (found : List Token) (rest : List Char) :
    scanFrom? .between found (lineBreak level ++ rest) = scanFrom? .between found rest := by
  have blanks : ∀ n, scanFrom? .between found (List.replicate n ' ' ++ rest) =
      scanFrom? .between found rest := by
    intro n
    induction n with
    | zero => rfl
    | succ n ih => exact ih
  exact blanks (2 * level)

/-! ### The tokens of a written value -/

theorem prettyItems_cons (level : ℕ) (v : Json) (vs : List Json) : prettyItems level (v :: vs) =
    lineBreak level ++ v.pretty level ++ (if vs = [] then [] else ',' :: prettyItems level vs) := by
  cases vs with
  | nil => simp [prettyItems]
  | cons w ws => simp [prettyItems]

theorem itemTokens_cons (v : Json) (vs : List Json) :
    itemTokens (v :: vs) = v.tokens ++ (if vs = [] then [] else .comma :: itemTokens vs) := by
  cases vs with
  | nil => simp [itemTokens]
  | cons w ws => simp [itemTokens]

theorem prettyFields_cons (level : ℕ) (key : List Char) (v : Json)
    (fields : List (List Char × Json)) : prettyFields level ((key, v) :: fields) =
      lineBreak level ++ quote key ++ ':' :: ' ' :: v.pretty level ++
        (if fields = [] then [] else ',' :: prettyFields level fields) := by
  cases fields with
  | nil => simp [prettyFields]
  | cons f fs => simp [prettyFields]

theorem fieldTokens_cons (key : List Char) (v : Json) (fields : List (List Char × Json)) :
    fieldTokens ((key, v) :: fields) = .string key :: .colon :: v.tokens ++
      (if fields = [] then [] else .comma :: fieldTokens fields) := by
  cases fields with
  | nil => simp [fieldTokens]
  | cons f fs => simp [fieldTokens]

/-- The scanner takes the tokens of `v` from its written form. -/
def Scans (v : Json) : Prop :=
  ∀ level found rest, Closes rest → scanFrom? .between found (v.pretty level ++ rest) =
    scanFrom? .between (v.tokens.reverse ++ found) rest

theorem scanFrom?_items {items : List Json} (each : ∀ v ∈ items, v.Scans) (level : ℕ)
    (found : List Token) {rest : List Char} (closes : Closes rest) :
    scanFrom? .between found (prettyItems level items ++ rest) =
      scanFrom? .between ((itemTokens items).reverse ++ found) rest := by
  induction items generalizing found with
  | nil => rfl
  | cons v vs ih =>
    have first := each v List.mem_cons_self
    have others := ih fun w member => each w (List.mem_cons_of_mem v member)
    rw [prettyItems_cons, itemTokens_cons, List.append_assoc, List.append_assoc,
      scanFrom?_lineBreak]
    by_cases last : vs = []
    · rw [if_pos last, if_pos last, List.nil_append, List.append_nil]
      exact first level found rest closes
    · rw [if_neg last, if_neg last, List.cons_append,
        first level found _ (closes_cons (by decide) (by decide) _), scanFrom?_mark rfl, others]
      simp

theorem scanFrom?_fields {fields : List (List Char × Json)}
    (keys : ∀ f ∈ fields, ∃ cs, f.1 = escape cs) (each : ∀ f ∈ fields, f.2.Scans) (level : ℕ)
    (found : List Token) {rest : List Char} (closes : Closes rest) :
    scanFrom? .between found (prettyFields level fields ++ rest) =
      scanFrom? .between ((fieldTokens fields).reverse ++ found) rest := by
  induction fields generalizing found with
  | nil => rfl
  | cons f fs ih =>
    obtain ⟨key, v⟩ := f
    obtain ⟨cs, rfl⟩ : ∃ cs, key = escape cs := keys _ List.mem_cons_self
    have first : v.Scans := each _ List.mem_cons_self
    have others := ih (fun g member => keys g (List.mem_cons_of_mem _ member))
      fun g member => each g (List.mem_cons_of_mem _ member)
    -- One field, whether a comma or the end of the object comes after it.
    have value (after : List Char) (closes : Closes after) : scanFrom? .between found
        (lineBreak level ++ quote (escape cs) ++ ':' :: ' ' :: v.pretty level ++ after) =
        scanFrom? .between (v.tokens.reverse ++ .colon :: .string (escape cs) :: found) after := by
      rw [List.append_assoc, List.append_assoc, scanFrom?_lineBreak, scanFrom?_quote]
      exact first level _ after closes
    rw [prettyFields_cons, fieldTokens_cons, List.append_assoc]
    by_cases last : fs = []
    · rw [if_pos last, if_pos last, List.nil_append, value rest closes]
      simp
    · rw [if_neg last, if_neg last, List.cons_append,
        value _ (closes_cons (by decide) (by decide) _), scanFrom?_mark rfl, others]
      simp

theorem WellSpelled.scans {v : Json} (h : v.WellSpelled) : v.Scans := by
  induction h with
  | null => exact fun level found rest closes => scanFrom?_word closes
  | bool b => cases b <;> exact fun level found rest closes => scanFrom?_word closes
  | number literal => exact fun level found rest closes => scanFrom?_literal literal closes
  | string cs => exact fun level found rest _ => scanFrom?_quote cs found rest
  | @array items each ih =>
    intro level found rest closes
    cases items with
    | nil => rfl
    | cons v vs =>
      rw [pretty, tokens, List.append_assoc, List.append_assoc, List.cons_append,
        scanFrom?_mark rfl, scanFrom?_items ih _ _ (closes_lineBreak _ _), scanFrom?_lineBreak,
        List.cons_append, scanFrom?_mark rfl]
      simp
  | @object fields keys each ih =>
    intro level found rest closes
    cases fields with
    | nil => rfl
    | cons f fs =>
      rw [pretty, tokens, List.append_assoc, List.append_assoc, List.cons_append,
        scanFrom?_mark rfl, scanFrom?_fields keys ih _ _ (closes_lineBreak _ _),
        scanFrom?_lineBreak, List.cons_append, scanFrom?_mark rfl]
      simp

theorem WellSpelled.tokens?_pretty {v : Json} (h : v.WellSpelled) :
    tokens? (v.pretty 0) = some v.tokens := by
  have scanned := h.scans 0 [] [] closes_nil
  rw [List.append_nil, List.append_nil] at scanned
  rw [tokens?, scanned]
  simp [scanFrom?, finish?]

/-! ### The value of its tokens -/

/-- The builder makes `v` of its tokens. -/
def Builds (v : Json) : Prop :=
  ∀ canClose open_ rest, buildFrom? (.value canClose open_) (v.tokens ++ rest) =
    buildFrom? (.next v open_) rest

theorem buildFrom?_step {b next : Building} {t : Token} (step : buildToken? b t = some next)
    (rest : List Token) : buildFrom? b (t :: rest) = buildFrom? next rest := by
  rw [buildFrom?, step]

theorem buildFrom?_items {v : Json} {vs : List Json} (each : ∀ w ∈ v :: vs, w.Builds)
    (canClose : Bool) (before : List Json) (outer : List Frame) (rest : List Token) :
    buildFrom? (.value canClose (.array before :: outer))
        (itemTokens (v :: vs) ++ .closeArray :: rest) =
      buildFrom? (.next (.array (before.reverse ++ v :: vs)) outer) rest := by
  induction vs generalizing v canClose before with
  | nil =>
    rw [itemTokens, each v List.mem_cons_self, buildFrom?_step rfl, List.reverse_cons]
  | cons w ws ih =>
    have others := fun x member => each x (List.mem_cons_of_mem v member)
    rw [itemTokens_cons, if_neg (List.cons_ne_nil w ws), List.append_assoc, List.cons_append,
      each v List.mem_cons_self, buildFrom?_step rfl, ih others, List.reverse_cons,
      List.append_assoc]
    rfl

theorem buildFrom?_field (key : List Char) {v : Json} (builds : v.Builds) (canClose : Bool)
    (before : List (List Char × Json)) (outer : List Frame) (rest : List Token) :
    buildFrom? (.key canClose before outer) (.string key :: .colon :: (v.tokens ++ rest)) =
      buildFrom? (.next v (.object before key :: outer)) rest := by
  have named : buildToken? (.key canClose before outer) (.string key) =
      some (.colon key before outer) := by
    cases canClose <;> rfl
  rw [buildFrom?_step named, buildFrom?_step rfl, builds]

theorem buildFrom?_fields {key : List Char} {v : Json} {fields : List (List Char × Json)}
    (each : ∀ f ∈ (key, v) :: fields, f.2.Builds) (canClose : Bool)
    (before : List (List Char × Json)) (outer : List Frame) (rest : List Token) :
    buildFrom? (.key canClose before outer)
        (fieldTokens ((key, v) :: fields) ++ .closeObject :: rest) =
      buildFrom? (.next (.object (before.reverse ++ (key, v) :: fields)) outer) rest := by
  induction fields generalizing key v canClose before with
  | nil =>
    have builds : v.Builds := each _ List.mem_cons_self
    rw [fieldTokens, List.cons_append, List.cons_append, buildFrom?_field key builds,
      buildFrom?_step rfl, List.reverse_cons]
  | cons f fs ih =>
    have builds : v.Builds := each _ List.mem_cons_self
    have others := fun g member => each g (List.mem_cons_of_mem (key, v) member)
    rw [fieldTokens_cons, if_neg (List.cons_ne_nil f fs), List.append_assoc, List.cons_append,
      List.cons_append, List.cons_append, buildFrom?_field key builds, buildFrom?_step rfl,
      ih others, List.reverse_cons, List.append_assoc]
    rfl

theorem WellSpelled.builds {v : Json} (h : v.WellSpelled) : v.Builds := by
  induction h with
  | null => exact fun canClose open_ rest => rfl
  | bool b => cases b <;> exact fun canClose open_ rest => rfl
  | number literal => exact fun canClose open_ rest => rfl
  | string cs => exact fun canClose open_ rest => rfl
  | @array items each ih =>
    intro canClose open_ rest
    rw [tokens, List.append_assoc, List.cons_append, buildFrom?_step rfl]
    cases items with
    | nil => rfl
    | cons v vs => exact buildFrom?_items ih true [] open_ rest
  | @object fields keys each ih =>
    intro canClose open_ rest
    rw [tokens, List.append_assoc, List.cons_append, buildFrom?_step rfl]
    cases fields with
    | nil => rfl
    | cons f fs => exact buildFrom?_fields ih true [] open_ rest

/-- What is written is read back. -/
theorem WellSpelled.read?_prettyText {v : Json} (h : v.WellSpelled) :
    read? v.prettyText = some v := by
  have built := h.builds false [] []
  rw [List.append_nil] at built
  rw [read?, prettyText, String.toList_ofList, h.tokens?_pretty, Option.bind_some, ofTokens?, built]
  rfl

end Json

end FermiQuiz
