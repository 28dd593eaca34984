import Mathlib
import FermiQuiz.Settings
import FermiQuiz.Proofs.Store.Reading

/-!
# Expanded paths

The paths of settings are expanded in one pass from left to right. Up to the first opened reference
a text stays as it is; the reference gives way to what its variable holds; and the pass goes on
behind it, so that what was put in is never looked at.
-/

namespace FermiQuiz

namespace Text

/-! ### References -/

def opening : List Char := ['$', '{']

/-- A reference is opened somewhere in the text, whether it is closed or not. -/
def Opens (s : String) : Prop := opening <:+: s.toList

instance (s : String) : Decidable (Opens s) :=
  inferInstanceAs (Decidable (opening <:+: s.toList))

def reference (name : String) : String := "$\x7b" ++ name ++ "\x7d"

/-- Somewhere a reference is opened and a closing brace follows. -/
def HasReference (s : String) : Prop := ∃ a v b, s = a ++ reference v ++ b

/-- The pass over a text meets references to these variables, one after the other. -/
inductive Meets : String → List String → Prop
  | plain {s : String} (unreferred : ¬ HasReference s) : Meets s []
  | reference {a v b : String} {names : List String} (first : ¬ Opens a) (closed : '}' ∉ v.toList)
      (rest : Meets b names) : Meets (a ++ reference v ++ b) (v :: names)

theorem toList_append_reference (a v b : String) : (a ++ reference v ++ b).toList =
    a.toList ++ '$' :: '{' :: (v.toList ++ '}' :: b.toList) := by
  simp [reference]

theorem HasReference.mem_toList {s : String} (h : HasReference s) : '$' ∈ s.toList := by
  obtain ⟨a, v, b, rfl⟩ := h
  rw [toList_append_reference]
  exact List.mem_append_right _ List.mem_cons_self

theorem exists_first_opening {cs : List Char} (opened : opening <:+: cs) :
    ∃ front back, cs = front ++ '$' :: '{' :: back ∧ ¬ opening <:+: front := by
  induction cs with
  | nil => exact absurd (List.infix_nil.mp opened) (by decide)
  | cons c cs ih =>
    by_cases here : opening <+: c :: cs
    · obtain ⟨back, whole⟩ := here
      exact ⟨[], back, whole.symm, by decide⟩
    · obtain ⟨front, back, rfl, free⟩ := ih ((List.infix_cons_iff.mp opened).resolve_left here)
      refine ⟨c :: front, back, rfl, fun earlier => ?_⟩
      rcases List.infix_cons_iff.mp earlier with starts | later
      · exact here (starts.trans (List.prefix_append (c :: front) _))
      · exact free later

theorem hasReference_of_toList {s : String} {front back : List Char}
    (whole : s.toList = front ++ '$' :: '{' :: back) (closed : '}' ∈ back) : HasReference s := by
  obtain ⟨v, b, rfl, -⟩ := List.eq_append_cons_of_mem closed
  refine ⟨String.ofList front, String.ofList v, String.ofList b, String.toList_inj.mp ?_⟩
  rw [toList_append_reference, whole]
  simp only [String.toList_ofList]

/-- The first opened reference of a text that has one ends with the first closing brace. -/
theorem HasReference.exists_first {s : String} (h : HasReference s) :
    ∃ a v b, s = a ++ reference v ++ b ∧ ¬ Opens a ∧ '}' ∉ v.toList := by
  obtain ⟨a, v, b, rfl⟩ := h
  obtain ⟨front, back, whole, free, closed⟩ : ∃ front back,
      (a ++ reference v ++ b).toList = front ++ '$' :: '{' :: back ∧ ¬ opening <:+: front ∧
        '}' ∈ back := by
    rw [toList_append_reference]
    by_cases opened : Opens a
    · obtain ⟨front, back, split, free⟩ := exists_first_opening opened
      exact ⟨front, back ++ '$' :: '{' :: (v.toList ++ '}' :: b.toList), by simp [split], free,
        by simp⟩
    · exact ⟨a.toList, _, rfl, opened, by simp⟩
  obtain ⟨name, rest, rfl, missing⟩ := List.eq_append_cons_of_mem closed
  refine ⟨String.ofList front, String.ofList name, String.ofList rest, ?_, ?_, ?_⟩
  · apply String.toList_inj.mp
    rw [toList_append_reference (String.ofList front), whole]
    simp only [String.toList_ofList]
  · simpa only [Opens, String.toList_ofList] using free
  · simpa only [String.toList_ofList] using missing

/-! ### The parts of a text -/

theorem partsFrom_cons {c : Char} {cs : List Char} (plain : ¬ opening <+: c :: cs) :
    partsFrom none (c :: cs) = .char c :: partsFrom none cs := by
  rw [partsFrom]
  rintro rest rfl rfl
  exact plain (List.prefix_append opening rest)

theorem partsFrom_of_free {cs : List Char} (free : ¬ opening <:+: cs) :
    partsFrom none cs = cs.map .char := by
  induction cs with
  | nil => rfl
  | cons c cs ih =>
    obtain ⟨here, later⟩ := not_or.mp (mt List.infix_cons_iff.mpr free)
    rw [partsFrom_cons here, ih later, List.map_cons]

theorem partsFrom_opening {cs : List Char} (free : ¬ opening <:+: cs) (rest : List Char) :
    partsFrom none (cs ++ '$' :: '{' :: rest) = cs.map .char ++ partsFrom (some []) rest := by
  induction cs with
  | nil => rfl
  | cons c cs ih =>
    obtain ⟨here, later⟩ := not_or.mp (mt List.infix_cons_iff.mpr free)
    have plain : ¬ opening <+: c :: (cs ++ '$' :: '{' :: rest) := by
      rintro ⟨tail, same⟩
      cases cs with
      | nil => simp [opening] at same
      | cons d cs =>
        apply here
        simp only [opening, List.cons_append, List.nil_append, List.cons.injEq] at same
        obtain ⟨rfl, rfl, -⟩ := same
        exact List.prefix_append opening cs
    rw [List.cons_append, partsFrom_cons plain, ih later, List.map_cons, List.cons_append]

theorem partsFrom_unclosed {cs : List Char} (seen : List Char) (unclosed : '}' ∉ cs) :
    partsFrom (some seen) cs = ('$' :: '{' :: (seen.reverse ++ cs)).map .char := by
  induction cs generalizing seen with
  | nil => rw [partsFrom, List.append_nil]
  | cons c cs ih =>
    obtain ⟨other, later⟩ := not_or.mp (mt List.mem_cons.mpr unclosed)
    rw [partsFrom, if_neg (Ne.symm other), ih (c :: seen) later, List.reverse_cons,
      List.append_assoc, List.singleton_append]

theorem partsFrom_closed {cs : List Char} (seen : List Char) (closed : '}' ∉ cs)
    (rest : List Char) : partsFrom (some seen) (cs ++ '}' :: rest) =
      .reference (seen.reverse ++ cs) :: partsFrom none rest := by
  induction cs generalizing seen with
  | nil => rw [List.nil_append, partsFrom, if_pos rfl, List.append_nil]
  | cons c cs ih =>
    obtain ⟨other, later⟩ := not_or.mp (mt List.mem_cons.mpr closed)
    rw [List.cons_append, partsFrom, if_neg (Ne.symm other), ih (c :: seen) later,
      List.reverse_cons, List.append_assoc, List.singleton_append]

theorem parts_of_no_reference {s : String} (unreferred : ¬ HasReference s) :
    parts s = s.toList.map .char := by
  unfold parts
  by_cases opened : Opens s
  · obtain ⟨front, back, whole, free⟩ := exists_first_opening opened
    have unclosed : '}' ∉ back := fun closed => unreferred (hasReference_of_toList whole closed)
    rw [whole, partsFrom_opening free, partsFrom_unclosed [] unclosed, ← List.map_append]
    rfl
  · exact partsFrom_of_free opened

theorem parts_reference {a v : String} (first : ¬ Opens a) (closed : '}' ∉ v.toList)
    (b : String) : parts (a ++ reference v ++ b) =
      a.toList.map .char ++ .reference v.toList :: parts b := by
  unfold parts
  rw [toList_append_reference, partsFrom_opening first, partsFrom_closed [] closed]
  rfl

/-! ### Filling in -/

variable (value : String → Option String)

theorem flatMap_fill_char (cs : List Char) : (cs.map .char).flatMap (Part.fill value) = cs := by
  rw [List.flatMap_map]
  exact List.flatMap_singleton' cs

theorem expand_of_no_reference {s : String} (unreferred : ¬ HasReference s) :
    expand value s = s := by
  rw [expand, parts_of_no_reference unreferred, flatMap_fill_char, String.ofList_toList]

theorem expand_reference {a v : String} (first : ¬ Opens a) (closed : '}' ∉ v.toList)
    (b : String) :
    expand value (a ++ reference v ++ b) = a ++ (value v).getD "" ++ expand value b := by
  rw [expand, parts_reference first closed, List.flatMap_append, flatMap_fill_char,
    List.flatMap_cons, Part.fill, String.ofList_toList, String.ofList_append,
    String.ofList_append, String.ofList_toList, String.ofList_toList, String.append_assoc, expand]

/-! ### The names that are met -/

def Part.name? : Part → Option String
  | char _ => none
  | reference name => some (String.ofList name)

theorem exists_meets (s : String) : ∃ names, Meets s names := by
  induction size : s.length using Nat.strong_induction_on generalizing s with
  | _ n ih =>
    by_cases referred : HasReference s
    · obtain ⟨a, v, b, rfl, first, closed⟩ := referred.exists_first
      have shorter : b.length < n := by
        have mark : 0 < "$\x7b".length := by decide
        rw [← size, reference]
        simp only [String.length_append]
        omega
      obtain ⟨names, rest⟩ := ih _ shorter b rfl
      exact ⟨v :: names, .reference first closed rest⟩
    · exact ⟨[], .plain referred⟩

theorem Meets.names_eq {s : String} {names : List String} (met : Meets s names) :
    names = (parts s).filterMap Part.name? := by
  have no_name (cs : List Char) : (cs.map .char).filterMap Part.name? = [] := by
    simp [List.filterMap_map, Function.comp_def, Part.name?]
  induction met with
  | plain unreferred => rw [parts_of_no_reference unreferred, no_name]
  | reference first closed rest ih =>
    rw [parts_reference first closed, List.filterMap_append, no_name, List.nil_append,
      List.filterMap_cons, Part.name?, String.ofList_toList, ← ih]

theorem expand_congr {value value' : String → Option String} {s : String} {names : List String}
    (met : Meets s names) (agree : ∀ v ∈ names, value v = value' v) :
    expand value s = expand value' s := by
  induction met with
  | plain unreferred =>
    rw [expand_of_no_reference value unreferred, expand_of_no_reference value' unreferred]
  | reference first closed rest ih =>
    obtain ⟨here, later⟩ := List.forall_mem_cons.mp agree
    rw [expand_reference value first closed, expand_reference value' first closed, here, ih later]

end Text

/-! ### Settings -/

namespace WorldStep

theorem run_mapM {α β : Type} {f : α → WorldStep β} {g : α → β} {w : World}
    (ran : ∀ a, (f a).run w = (.ok (g a), w)) (xs : List α) :
    (xs.mapM f).run w = (.ok (xs.map g), w) := by
  induction xs with
  | nil => rfl
  | cons x xs ih =>
    rw [List.mapM_cons, run_bind_of_ok (ran x), run_bind_of_ok ih]
    rfl

theorem run_expandM (s : String) (w : World) :
    (Text.expandM (fun name => liftM (Host.lookUp name : StateM World (Option String))) s :
      WorldStep String).run w = (.ok (Text.expand w.environment.lookUp s), w) := by
  unfold Text.expandM
  rw [run_bind_of_ok (run_mapM (g := Text.Part.fill w.environment.lookUp) (fun part => ?_) _)]
  · rw [← List.flatMap_def]
    rfl
  · cases part <;> rfl

theorem run_expand (settings : Settings) (w : World) :
    (settings.expand : WorldStep Settings).run w = (.ok { settings with
      dataset := settings.dataset.map (Text.expand w.environment.lookUp)
      facts := Text.expand w.environment.lookUp settings.facts
      questions := Text.expand w.environment.lookUp settings.questions }, w) := by
  unfold Settings.expand
  have dataset : (settings.dataset.mapM (fun path => Text.expandM
      (fun name => liftM (Host.lookUp name : StateM World (Option String))) path) :
      WorldStep (Option String)).run w =
        (.ok (settings.dataset.map (Text.expand w.environment.lookUp)), w) := by
    cases settings.dataset with
    | none => rfl
    | some path => exact run_bind_of_ok (run_expandM path w) fun filled => pure (some filled)
  rw [run_bind_of_ok dataset, run_bind_of_ok (run_expandM _ w), run_bind_of_ok (run_expandM _ w)]
  rfl

end WorldStep

open Text (Opens HasReference Meets reference expand)

/-- The paths of settings are expanded from the environment in one pass. A text without a reference
stays as it is. Otherwise the first reference, which ends with the first closing brace, gives way to
what its variable holds, and only what follows is expanded further, so that what was put in is never
expanded again. The pass comes to an end on every text, and depends on the variables that it meets
and on no other. -/
theorem paths_expanded_in_one_pass :
    (∀ (settings : Settings) (w : World), (settings.expand : WorldStep Settings).run w =
      (.ok { settings with
        dataset := settings.dataset.map (expand w.environment.lookUp)
        facts := expand w.environment.lookUp settings.facts
        questions := expand w.environment.lookUp settings.questions }, w)) ∧
    ∀ value : String → Option String,
      (∀ s, ¬ HasReference s → expand value s = s) ∧
      (∀ a v b, ¬ Opens a → '}' ∉ v.toList →
        expand value (a ++ reference v ++ b) = a ++ (value v).getD "" ++ expand value b) ∧
      ∀ s, ∃ names, Meets s names ∧ (∀ names', Meets s names' → names' = names) ∧
        ∀ value', (∀ v ∈ names, value' v = value v) → expand value' s = expand value s := by
  refine ⟨WorldStep.run_expand, fun value => ⟨fun s => Text.expand_of_no_reference value,
    fun a v b first closed => Text.expand_reference value first closed b, fun s => ?_⟩⟩
  obtain ⟨names, met⟩ := Text.exists_meets s
  refine ⟨names, met, fun names' met' => ?_, fun value' agree => Text.expand_congr met agree⟩
  rw [met.names_eq, met'.names_eq]

/-- A variable that holds a reference to itself, and one that opens a reference which the text would
close. -/
def selfReferring (name : String) : Option String :=
  if name = "SELF" then some "$\x7bSELF\x7d" else if name = "OPEN" then some "a$\x7bb" else none

/-- What variables hold is put in as it is, references and all. -/
theorem selfReferring_expanded_once :
    (¬ Opens "" ∧ '}' ∉ "SELF".toList ∧ '}' ∉ "OPEN".toList ∧ ¬ HasReference "/x" ∧
      ¬ HasReference "\x7d/x") ∧
    expand selfReferring ("" ++ reference "SELF" ++ "/x") = "$\x7bSELF\x7d/x" ∧
    expand selfReferring ("" ++ reference "OPEN" ++ "\x7d/x") = "a$\x7bb\x7d/x" := by
  obtain ⟨-, equations⟩ := paths_expanded_in_one_pass
  obtain ⟨plain, referring, -⟩ := equations selfReferring
  have free : ¬ Opens "" := by decide
  have self : '}' ∉ "SELF".toList := by decide
  have opened : '}' ∉ "OPEN".toList := by decide
  have path : ¬ HasReference "/x" := fun h => absurd h.mem_toList (by decide)
  have closing : ¬ HasReference "\x7d/x" := fun h => absurd h.mem_toList (by decide)
  refine ⟨⟨free, self, opened, path, closing⟩, ?_, ?_⟩
  · rw [referring "" "SELF" "/x" free self, plain "/x" path]
    rfl
  · rw [referring "" "OPEN" "\x7d/x" free opened, plain "\x7d/x" closing]
    rfl

end FermiQuiz
