import Mathlib
import FermiQuiz.Command.Run
import FermiQuiz.Proofs.Store.Files

/-!
# Steps that look and steps that print

Settings, datasets, facts and questions are read from files and environment variables. Reading
changes nothing, and what it gives depends on the files and the variables alone. Printing always
succeeds and changes nothing but what was printed.
-/

namespace FermiQuiz

namespace WorldStep

variable {α β : Type} {w w' : World}

theorem run_bind_of_error {x : WorldStep α} {e : Failure} (ran : x.run w = (.error e, w'))
    (f : α → WorldStep β) : (x >>= f).run w = (.error e, w') := by
  rw [ExceptT.run_bind]
  simp only [bind, StateT.bind, ran]
  rfl

theorem run_ofGame_eq_ok {x : Except GameError α} {a : α} :
    (Attempt.ofGame x : WorldStep α).run w = (.ok a, w') ↔ x = .ok a ∧ w' = w := by
  cases x with
  | error e =>
    refine ⟨fun ran => ?_, fun same => ?_⟩
    · cases ran
    · cases same.1
  | ok b =>
    refine ⟨fun ran => ?_, fun same => ?_⟩
    · cases ran
      exact ⟨rfl, rfl⟩
    · obtain ⟨same, rfl⟩ := same
      cases same
      rfl

/-- The step gives what the files and the environment say and leaves the world as it was. -/
def Asks (x : WorldStep α) : Prop :=
  ∃ answer : FileTree → Environment → Except Failure α,
    ∀ w, x.run w = (answer w.tree w.environment, w)

namespace Asks

/-- What is asked does not depend on what was printed. -/
theorem run_congr {x : WorldStep α} (hx : Asks x) {result : Except Failure α}
    (ran : x.run w = (result, w)) (tree : w'.tree = w.tree)
    (environment : w'.environment = w.environment) : x.run w' = (result, w') := by
  obtain ⟨answer, hx⟩ := hx
  rw [hx] at ran
  rw [hx, tree, environment, (Prod.mk.inj ran).1]

theorem world_eq {x : WorldStep α} (hx : Asks x) {result : Except Failure α}
    (ran : x.run w = (result, w')) : w' = w := by
  obtain ⟨answer, hx⟩ := hx
  exact congrArg Prod.snd (ran.symm.trans (hx w))

theorem pure (a : α) : Asks (pure a : WorldStep α) := ⟨fun _ _ => .ok a, fun _ => rfl⟩

theorem throw (f : Failure) : Asks (throw f : WorldStep α) := ⟨fun _ _ => .error f, fun _ => rfl⟩

theorem ofGame (x : Except GameError α) : Asks (Attempt.ofGame x : WorldStep α) :=
  ⟨fun _ _ => x.mapError .ofGame, fun _ => by cases x <;> rfl⟩

theorem ofExcept (x : Except Failure α) : Asks (ExceptT.mk (Pure.pure x) : WorldStep α) :=
  ⟨fun _ _ => x, fun _ => rfl⟩

theorem bind {x : WorldStep α} {f : α → WorldStep β} (hx : Asks x) (hf : ∀ a, Asks (f a)) :
    Asks (x >>= f) := by
  obtain ⟨first, hx⟩ := hx
  choose second hf using hf
  refine ⟨fun tree environment => (first tree environment).bind fun a => second a tree environment,
    fun w => ?_⟩
  have asked := hx w
  dsimp only
  cases outcome : first w.tree w.environment with
  | ok a =>
    rw [outcome] at asked
    exact (run_bind_of_ok asked f).trans (hf a w)
  | error e =>
    rw [outcome] at asked
    exact run_bind_of_error asked f

theorem within {x : WorldStep α} (context : String) (hx : Asks x) :
    Asks (Attempt.within context x) := by
  obtain ⟨answer, hx⟩ := hx
  refine ⟨fun tree environment => (answer tree environment).mapError (·.within context),
    fun w => ?_⟩
  simp only [Attempt.within, ExceptT.run, ExceptT.mk, Bind.bind, StateT.bind]
  rw [show x w = _ from hx w]
  cases answer w.tree w.environment <;> rfl

theorem readFile (purpose path : String) : Asks (readFile purpose path) := by
  refine ⟨fun tree _ => (tree.readText path).mapError fun e =>
    ⟨["failed to read " ++ purpose ++ ": " ++ path], .file e⟩, fun w => ?_⟩
  simp only [FermiQuiz.readFile, Attempt.ofFile, ExceptT.run, ExceptT.mk, Bind.bind, StateT.bind,
    Host.readText]
  cases w.tree.readText path <;> rfl

theorem isPresent (path : String) : Asks (liftM (Host.isPresent path : StateM World Bool)) :=
  ⟨fun tree _ => .ok (tree.isPresent path), fun _ => rfl⟩

theorem lookUp (name : String) :
    Asks (liftM (Host.lookUp name : StateM World (Option String))) :=
  ⟨fun _ environment => .ok (environment.lookUp name), fun _ => rfl⟩

/-! ### Reading files -/

theorem loadDataset (path : String) : Asks (loadDataset path) :=
  bind (readFile "dataset" path) fun text => within _ (ofExcept (Dataset.ofText text))

theorem loadOrBundled (path : Option String) : Asks (loadOrBundled path) := by
  cases path with
  | none => exact within _ (ofGame Dataset.bundled)
  | some path => exact loadDataset path

theorem loadList (purpose : String) (read : String → Option (List α)) (path : String) :
    Asks (loadList purpose read path) := by
  refine bind (isPresent path) fun present => ?_
  cases present with
  | false => exact pure []
  | true =>
    refine bind (readFile purpose path) fun text => ?_
    cases read text with
    | none => exact throw _
    | some xs => exact pure xs

theorem loadFacts (path : String) : Asks (loadFacts path) := loadList "values" readFacts? path

theorem loadQuestions (path : String) : Asks (loadQuestions path) :=
  bind (loadList "questions" readQuestions? path) fun _ => pure _

/-! ### Settings -/

theorem findFile (path : Option String) : Asks (Settings.findFile path) := by
  cases path with
  | some path =>
    refine bind (isPresent path) fun present => ?_
    cases present with
    | false => exact throw _
    | true => exact pure (some path)
  | none =>
    refine bind (isPresent Settings.localFile) fun present => ?_
    cases present with
    | true => exact pure (some Settings.localFile)
    | false =>
      refine bind (lookUp "HOME") fun home => ?_
      cases home with
      | none => exact pure none
      | some home =>
        refine bind (isPresent _) fun present => ?_
        cases present with
        | false => exact pure none
        | true => exact pure (some _)

theorem loadFile (path : String) : Asks (Settings.loadFile path) := by
  refine bind (readFile "config" path) fun text => ?_
  cases Settings.read? text with
  | none => exact throw _
  | some settings => exact pure settings

theorem mapM {f : α → WorldStep β} (hf : ∀ a, Asks (f a)) (xs : List α) : Asks (xs.mapM f) := by
  induction xs with
  | nil => exact pure []
  | cons x xs ih =>
    rw [List.mapM_cons]
    exact bind (hf x) fun _ => bind ih fun _ => pure _

theorem expandM {value : String → WorldStep (Option String)} (hv : ∀ name, Asks (value name))
    (s : String) : Asks (Text.expandM value s) := by
  refine bind (mapM (fun part => ?_) _) fun _ => pure _
  cases part with
  | char c => exact pure [c]
  | reference name => exact bind (hv _) fun _ => pure _

theorem expand (settings : Settings) : Asks settings.expand := by
  have filled (path : String) : Asks (Text.expandM
      (fun name => liftM (Host.lookUp name : StateM World (Option String))) path) :=
    expandM lookUp path
  refine bind ?_ fun _ => bind (filled _) fun _ => bind (filled _) fun _ => pure _
  cases settings.dataset with
  | none => exact pure none
  | some path => exact bind (filled path) fun _ => pure _

theorem loadSettings (path : Option String) : Asks (Settings.load path) := by
  refine bind (findFile path) fun found => ?_
  cases found with
  | some path => exact bind (loadFile path) fun _ => bind (lookUp _) fun _ => expand _
  | none => exact bind (pure _) fun _ => bind (lookUp _) fun _ => expand _

/-! ### Opening games and datasets -/

theorem openGame (moment : Moment) (choice : GameChoice) : Asks (Command.openGame moment choice) :=
  bind (loadSettings choice.config) fun _ => bind (loadOrBundled _) fun _ =>
    bind (ofGame _) fun _ => pure _

theorem openDataset (dataset config : Option String) :
    Asks (Command.openDataset dataset config) :=
  bind (loadSettings config) fun _ => bind (loadOrBundled _) fun _ => pure _

end Asks

/-! ### Printing -/

/-- The text of some lines, each of them ended. -/
def linesText (lines : List String) : String :=
  lines.foldr (fun line text => line ++ "\n" ++ text) ""

theorem linesText_append (lines lines' : List String) :
    linesText (lines ++ lines') = linesText lines ++ linesText lines' := by
  induction lines with
  | nil => rw [List.nil_append, linesText, linesText, List.foldr_nil, String.empty_append]
  | cons line lines ih =>
    change line ++ "\n" ++ linesText (lines ++ lines') = line ++ "\n" ++ linesText lines ++ _
    simp only [ih, String.append_assoc]

/-- The step prints some lines and does nothing else. -/
def Prints (lines : List String) (x : WorldStep Unit) : Prop :=
  ∀ w, x.run w = (.ok (), { w with printed := w.printed ++ linesText lines })

namespace Prints

theorem print (line : String) : Prints [line] (Command.print line) := by
  intro w
  have text : linesText [line] = line ++ "\n" := String.append_empty
  rw [text, ← String.append_assoc]
  rfl

theorem bind {x : WorldStep Unit} {f : Unit → WorldStep Unit} {lines lines' : List String}
    (hx : Prints lines x) (hf : ∀ a, Prints lines' (f a)) : Prints (lines ++ lines') (x >>= f) := by
  intro w
  rw [run_bind_of_ok (hx w), hf, linesText_append, String.append_assoc]

theorem forM (line : α → String) (xs : List α) :
    Prints (xs.map line) (xs.forM fun x => Command.print (line x)) := by
  induction xs with
  | nil =>
    intro w
    rw [List.map_nil, linesText, List.foldr_nil, String.append_empty]
    rfl
  | cons x xs ih => exact bind (print (line x)) fun _ => ih

end Prints

end WorldStep

end FermiQuiz
