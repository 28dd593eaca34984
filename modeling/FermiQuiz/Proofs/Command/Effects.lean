import Mathlib
import FermiQuiz.Proofs.Store.Writing

/-!
# What commands do to files

Commands that play or look write nothing. A command that makes facts or questions writes one
file, and that at its very end: if it fails, every file is as it was.
-/

namespace FermiQuiz

open Number (Elementary)
open WorldStep

namespace FileTree

/-- What there is at a place stays there. -/
def KeepsNodes (old new : FileTree) : Prop :=
  ∀ place node, old.node? place = some node → new.node? place = some node

instance : IsPreorder FileTree KeepsNodes where
  refl _ _ _ there := there
  trans _ _ _ h h' place node there := h' place node (h place node there)

theorem OnlyMakes.keepsNodes {paths : List String} {old new : FileTree}
    (h : OnlyMakes paths old new) : KeepsNodes old new := by
  intro place node there
  cases node with
  | directory => exact h.added.kept place there
  | file content =>
    have held : new.file? place = some content := by rw [h.files place, file?, there]
    unfold file? at held
    split at held
    · next found =>
      cases held
      exact found
    · cases held

/-- A file written where nothing was replaces nothing. -/
theorem keepsNodes_write {old new : FileTree} {path : String} {content : Content}
    (absent : old.isPresent path = false) (written : old.write path content = .ok new) :
    KeepsNodes old new := by
  obtain ⟨place, found, -, rfl⟩ := write_eq_ok written
  intro other node there
  rw [node?_put_of_ne, there]
  rintro rfl
  rw [isPresent, found] at absent
  simp [there] at absent

end FileTree

namespace Command

variable (moment : Moment)

theorem respects_runDaily (choice : GameChoice) (reveal json : Bool) :
    Respects (· = ·) (runDaily moment choice reveal json : WorldStep Unit).run := by
  refine .bindRun (.of_asks (.openGame moment choice)) fun game => ?_
  cases json with
  | true => exact .print _
  | false =>
    refine .bindRun (.print _) fun _ => .bindRun (.print _) fun _ => .bindRun (.print _) fun _ =>
      .bindRun (.of_prints (.forM figureLine _)) fun _ => ?_
    cases reveal with
    | true =>
      exact .bindRun (.of_asks (.ofGame _)) fun _ => .bindRun (.print _) fun _ => .print _
    | false => exact .bindRun (.print _) fun _ => .print _

theorem respects_runGuess [Elementary] (guess : Float) (attempt : UInt32) (choice : GameChoice)
    (json : Bool) :
    Respects (· = ·) (runGuess moment guess attempt choice json : WorldStep Unit).run := by
  refine .ite_throw fun _ => .bindRun (.of_asks (.openGame moment choice)) fun game =>
    .bindRun (.of_asks (.ofGame _)) fun hint => ?_
  cases json with
  | true => exact .print _
  | false =>
    refine .bindRun (.print _) fun _ => ?_
    cases hint.isCorrect with
    | true => exact .bindRun (.of_asks (.ofGame _)) fun _ => .print _
    | false => exact .of_asks (.pure _)

theorem respects_runValidate (dataset config : Option String) :
    Respects (· = ·) (runValidate dataset config : WorldStep Unit).run := by
  refine .bindRun (.of_asks (.openDataset dataset config)) fun opened => ?_
  obtain ⟨source, d⟩ := opened
  refine .bindRun (.print _) fun _ => .bindRun (.of_prints (.forM warningLine _)) fun _ => ?_
  split
  · exact .print _
  · exact .print _

theorem respects_runList [Elementary] (dataset config : Option String) (order : String) :
    Respects (· = ·) (runList dataset config order : WorldStep Unit).run := by
  refine .bindRun (.of_asks (.openDataset dataset config)) fun opened => ?_
  obtain ⟨source, d⟩ := opened
  dsimp only
  split
  · exact .of_asks (.throw _)
  · exact .bindRun (.of_asks (.ofGame _)) fun _ => .bindRun (.print _) fun _ => .print _

/-! ### Making a file -/

def Outcome.ofResult : Except Failure Unit → Outcome
  | .ok _ => .done
  | .error failure => .failed failure

/-- What a command that makes the file at `output` may do. When it fails, all files are as they
were, and directories are made only on the way to that path, which the settings may give. -/
def MakesOneFile (config : Option String) (output : Settings → String) (w : World) :
    Outcome → World → Prop
  | .done, w' => ∃ settings, (Settings.load config : WorldStep Settings).run w = (.ok settings, w) ∧
      w.tree.AddsDirectories (Path.directoriesAbove (output settings)) w'.tree ∧
      w.tree.WritesFile (output settings) w'.tree
  | .failed _, w' => w.tree.KeepsFiles w'.tree ∧ (w'.tree = w.tree ∨
      ∃ settings, (Settings.load config : WorldStep Settings).run w = (.ok settings, w) ∧
        w.tree.AddsDirectories (Path.directoriesAbove (output settings)) w'.tree)
  | .misused, _ => False

theorem makesOneFile_of_saves {config : Option String} {output : Settings → String}
    {f : Settings → WorldStep Unit} (hf : ∀ settings, Saves (output settings) (f settings))
    {w w' : World} {result : Except Failure Unit}
    (ran : (Settings.load config >>= f).run w = (result, w')) :
    MakesOneFile config output w (.ofResult result) w' := by
  obtain ⟨answer, asked⟩ := Asks.loadSettings config
  have loaded := asked w
  -- The path is known only once the settings are, and without them nothing is made.
  cases known : answer w.tree w.environment with
  | error e =>
    rw [known] at loaded
    rw [run_bind_of_error loaded] at ran
    cases ran
    exact ⟨fun _ => rfl, Or.inl rfl⟩
  | ok settings =>
    rw [known] at loaded
    rw [run_bind_of_ok loaded] at ran
    obtain ⟨added, ending⟩ := hf settings w result w' ran
    cases result with
    | error e => exact ⟨ending, Or.inr ⟨settings, loaded, added⟩⟩
    | ok _ => exact ⟨settings, loaded, added, ending⟩

theorem saves_report {path : String} {x : WorldStep Unit} (hx : Saves path x)
    (first second : String) : Saves path (do x; print first; print second) :=
  hx.bind_prints fun _ => (Prints.print first).bind fun _ => .print second

theorem makesOneFile_runImport (sheet : String) (facts config : Option String) {w w' : World}
    {result : Except Failure Unit}
    (ran : (runImport moment sheet facts config : WorldStep Unit).run w = (result, w')) :
    MakesOneFile config (fun settings => facts.getD settings.facts) w (.ofResult result) w' := by
  refine makesOneFile_of_saves (fun settings => ?_) ran
  refine .bind_asks (.readFile "values sheet" sheet) fun text =>
    .bind_asks (.within _ (.ofExcept (importFacts moment.stamp text))) fun imported =>
    .ite_throw fun _ => .bind_asks (.loadFacts _) fun existing =>
    .prints_bind (.forM brokenLine _) fun _ => ?_
  exact saves_report (.saveFile "values" _ _) _ _

theorem makesOneFile_runGenerate (facts questions : Option String) (count : Option ℕ)
    (seed : Option UInt64) (derive : Bool) (config : Option String) {w w' : World}
    {result : Except Failure Unit}
    (ran : (runGenerate moment facts questions count seed derive config : WorldStep Unit).run w =
      (result, w')) :
    MakesOneFile config (fun settings => questions.getD settings.questions) w (.ofResult result)
      w' := by
  refine makesOneFile_of_saves (fun settings => ?_) ran
  refine .bind_asks (.loadFacts _) fun given => .ite_throw fun _ =>
    .bind_asks (.loadQuestions _) fun existing =>
    .bind_asks (.within _ (.ofGame _)) fun made => ?_
  exact saves_report (.saveFile "questions" _ _) _ _

/-! ### Starting -/

theorem respects_writeStarter (path text : String) :
    Respects FileTree.KeepsNodes (writeStarter path text : WorldStep Unit).run := by
  intro w
  have looked : (liftM (Host.isPresent path : StateM World Bool) : WorldStep Bool).run w =
      (.ok (w.tree.isPresent path), w) := rfl
  unfold writeStarter
  rw [run_bind_of_ok looked]
  cases absent : w.tree.isPresent path with
  | true => exact Respects.print _ w
  | false =>
    have written := run_writeText [] path text w
    cases outcome : w.tree.write path (.text text) with
    | error e =>
      rw [outcome] at written
      rw [if_neg Bool.false_ne_true, run_bind_of_error written]
      exact fun _ _ there => there
    | ok tree =>
      rw [outcome] at written
      rw [if_neg Bool.false_ne_true, run_bind_of_ok written]
      exact FileTree.keepsNodes_write absent outcome

theorem respects_runInit : Respects FileTree.KeepsNodes (runInit : WorldStep Unit).run := by
  refine .bindRun (respects_writeStarter _ _) fun _ => .bindRun ?_ fun _ =>
    .bindRun (respects_writeStarter _ _) fun _ => .bindRun (.print _) fun _ =>
    .bindRun (.print _) fun _ => .bindRun (.print _) fun _ => .bindRun (.print _) fun _ => .print _
  rw [makeDirectories, if_neg (by decide)]
  exact .ofFile [] fun w => (respects_makeNested (List.Subset.refl _) w).keepsNodes

/-! ### Any command -/

/-- What a run of a command with an outcome may do to the files of a world. -/
def Permits (w : World) (outcome : Outcome) (w' : World) : Command → Prop
  | daily _ _ _ | guess _ _ _ _ | validate _ _ | list _ _ _ => w'.tree = w.tree
  | importSheet _ facts config =>
    MakesOneFile config (fun settings => facts.getD settings.facts) w outcome w'
  | generate _ questions _ _ _ config =>
    MakesOneFile config (fun settings => questions.getD settings.questions) w outcome w'
  | init => w.tree.KeepsNodes w'.tree

theorem runArguments_of_run [Elementary] {arguments : List String} {command : Command}
    (known : read? arguments = some command) {w w' : World} {result : Except Failure Unit}
    (ran : (run moment command : WorldStep Unit).run w = (result, w')) :
    (runArguments moment arguments : StateM World Outcome) w = (.ofResult result, w') := by
  simp only [runArguments, known, bind, StateT.bind, ran]
  cases result <;> rfl

/-- Playing and looking write nothing, also when they fail. A command that makes a file writes no
other, and if it fails, it has written none. -/
theorem commands_write_only_their_output [Elementary] (arguments : List String) (w : World) :
    match read? arguments with
    | none => (runArguments moment arguments : StateM World Outcome) w = (.misused, w)
    | some command => command.Permits w
        ((runArguments moment arguments : StateM World Outcome) w).1
        ((runArguments moment arguments : StateM World Outcome) w).2 := by
  cases known : read? arguments with
  | none => simp only [runArguments, known, pure, StateT.pure]
  | some command =>
    rcases ran : (run moment command : WorldStep Unit).run w with ⟨result, w'⟩
    rw [runArguments_of_run moment known ran]
    cases command with
    | daily choice reveal json =>
      exact ((respects_runDaily moment choice reveal json).apply ran).symm
    | guess number attempt choice json =>
      exact ((respects_runGuess moment number attempt choice json).apply ran).symm
    | validate dataset config => exact ((respects_runValidate dataset config).apply ran).symm
    | list dataset config order => exact ((respects_runList dataset config order).apply ran).symm
    | importSheet sheet facts config => exact makesOneFile_runImport moment sheet facts config ran
    | generate facts questions count seed derive config =>
      exact makesOneFile_runGenerate moment facts questions count seed derive config ran
    | init => exact respects_runInit.apply ran

end Command

end FermiQuiz
