import Mathlib
import FermiQuiz.Proofs.Store.Reading

/-!
# What saving changes

Saving a file makes the directories on the way to it and then writes it. No file changes before
the write, and the write changes none but the one that the path leads to.
-/

namespace FermiQuiz

namespace FileTree

variable {old mid new tree : FileTree} {paths : List String} {path : String}
variable {place other : List String}

/-- What the file at a place holds, if there is one. -/
def file? (tree : FileTree) (place : List String) : Option Content :=
  match tree.node? place with
  | some (.file content) => some content
  | _ => none

theorem file?_congr (h : new.node? place = old.node? place) : new.file? place = old.file? place := by
  rw [file?, file?, h]

/-! ### Directories -/

/-- No directory is lost, and those that are added are where some of the paths lead. -/
structure AddsDirectories (paths : List String) (old new : FileTree) : Prop where
  base : new.base = old.base
  kept (place : List String) :
    old.node? place = some .directory → new.node? place = some .directory
  added (place : List String) : new.node? place = some .directory →
    old.node? place = some .directory ∨
      ∃ path ∈ paths, new.findNames path (Path.bareNames path) = .ok place

/-- A way through directories stays one as long as they are there. -/
theorem walk_of_kept
    (kept : ∀ place, old.node? place = some .directory → new.node? place = some .directory)
    {start names : List String} (walked : old.walk start names = .ok place) :
    new.walk start names = .ok place := by
  induction names generalizing start with
  | nil => exact walked
  | cons name names ih =>
    rw [walk] at walked ⊢
    cases here : old.node? start with
    | none =>
      rw [here] at walked
      cases walked
    | some found =>
      cases found with
      | file content =>
        rw [here] at walked
        cases walked
      | directory =>
        rw [here] at walked
        rw [kept start here]
        dsimp only at walked ⊢
        split_ifs at walked ⊢ with idle up long
        · exact ih walked
        · exact ih walked
        · exact ih walked

namespace AddsDirectories

theorem refl (paths : List String) (tree : FileTree) : AddsDirectories paths tree tree :=
  ⟨rfl, fun _ h => h, fun _ h => Or.inl h⟩

theorem findNames (h : AddsDirectories paths old new) {names : List String}
    (found : old.findNames path names = .ok place) : new.findNames path names = .ok place := by
  unfold FileTree.findNames at found ⊢
  rw [h.base]
  split_ifs at found ⊢
  · exact walk_of_kept h.kept found
  · exact walk_of_kept h.kept found

theorem trans (h : AddsDirectories paths old mid) (h' : AddsDirectories paths mid new) :
    AddsDirectories paths old new where
  base := h'.base.trans h.base
  kept place there := h'.kept place (h.kept place there)
  added place there := by
    obtain before | new := h'.added place there
    · obtain before | ⟨path, member, found⟩ := h.added place before
      · exact Or.inl before
      · exact Or.inr ⟨path, member, h'.findNames found⟩
    · exact Or.inr new

theorem mono {paths' : List String} (h : AddsDirectories paths old new) (sub : paths ⊆ paths') :
    AddsDirectories paths' old new where
  base := h.base
  kept := h.kept
  added place there := (h.added place there).imp_right fun ⟨path, member, found⟩ =>
    ⟨path, sub member, found⟩

end AddsDirectories

/-! ### Files -/

def KeepsFiles (old new : FileTree) : Prop := ∀ place, new.file? place = old.file? place

/-- There is a file where the path leads, and no other file has changed. -/
def WritesFile (path : String) (old new : FileTree) : Prop :=
  ∃ place text, new.find path = .ok place ∧
    ∀ other, new.file? other = if other = place then some (.text text) else old.file? other

/-- No file has changed, and directories are added only where some of the paths lead. -/
structure OnlyMakes (paths : List String) (old new : FileTree) : Prop where
  added : AddsDirectories paths old new
  files : KeepsFiles old new

instance : IsPreorder FileTree (OnlyMakes paths) where
  refl tree := ⟨.refl paths tree, fun _ => rfl⟩
  trans _ _ _ h h' :=
    ⟨h.added.trans h'.added, fun place => (h'.files place).trans (h.files place)⟩

theorem makeDirectory_eq_ok (made : old.makeDirectory path = .ok new) :
    ∃ place, old.findNames path (Path.bareNames path) = .ok place ∧ old.node? place = none ∧
      place ≠ [] ∧ new = old.put place .directory := by
  unfold makeDirectory at made
  cases found : old.findNames path (Path.bareNames path) with
  | error e =>
    rw [found] at made
    cases made
  | ok place =>
    rw [found] at made
    change (if (old.node? place).isSome then _ else _) = _ at made
    split at made
    · cases made
    · next free =>
      cases made
      have absent : old.node? place = none := by simpa using free
      refine ⟨place, rfl, absent, ?_, rfl⟩
      rintro rfl
      cases absent

theorem makeDirectory_spec (made : old.makeDirectory path = .ok new) :
    OnlyMakes [path] old new := by
  obtain ⟨place, found, absent, inner, rfl⟩ := makeDirectory_eq_ok made
  refine ⟨⟨rfl, fun other there => ?_, fun other there => ?_⟩, fun other => ?_⟩
  · by_cases same : other = place
    · subst same
      exact node?_put_self inner
    · rw [node?_put_of_ne same, there]
  · by_cases same : other = place
    · subst same
      exact Or.inr ⟨path, List.mem_singleton_self path, findNames_put found (by simp [absent])⟩
    · rw [node?_put_of_ne same] at there
      exact Or.inl there
  · by_cases same : other = place
    · subst same
      rw [file?, file?, node?_put_self inner, absent]
    · exact file?_congr (node?_put_of_ne same)

theorem write_spec {text : String} (written : old.write path (.text text) = .ok new) :
    AddsDirectories [] old new ∧ WritesFile path old new := by
  obtain ⟨place, found, free, rfl⟩ := write_eq_ok written
  have inner : place ≠ [] := by
    rintro rfl
    exact free rfl
  refine ⟨⟨rfl, fun other there => ?_, fun other there => ?_⟩,
    place, text, findNames_put found free, fun other => ?_⟩
  · rw [node?_put_of_ne, there]
    rintro rfl
    exact free there
  · by_cases same : other = place
    · subst same
      rw [node?_put_self inner] at there
      cases there
    · rw [node?_put_of_ne same] at there
      exact Or.inl there
  · split
    · next same =>
      subst same
      rw [file?, node?_put_self inner]
    · next apart => exact file?_congr (node?_put_of_ne apart)

end FileTree

/-! ### Steps -/

namespace WorldStep

open FileTree

variable {α β : Type} {R : FileTree → FileTree → Prop} {paths : List String} {w w' : World}

/-- Whatever its outcome, the step takes the files to ones that `R` relates them to. -/
def Respects (R : FileTree → FileTree → Prop) (x : StateM World α) : Prop :=
  ∀ w, R w.tree (x w).2.tree

theorem Respects.apply {x : WorldStep α} (hx : Respects R x.run) {result : Except Failure α}
    (ran : x.run w = (result, w')) : R w.tree w'.tree := by
  have related := hx w
  rw [ran] at related
  exact related

namespace Respects

variable [IsPreorder FileTree R]

theorem of_same_tree {x : StateM World α} (h : ∀ w, (x w).2.tree = w.tree) : Respects R x := by
  intro w
  rw [h w]
  exact refl_of R w.tree

theorem pure (a : α) : Respects R (pure a : StateM World α) := of_same_tree fun _ => rfl

theorem bind {x : StateM World α} {f : α → StateM World β} (hx : Respects R x)
    (hf : ∀ a, Respects R (f a)) : Respects R (x >>= f) :=
  fun w => trans_of R (hx w) (hf (x w).1 (x w).2)

theorem of_asks {x : WorldStep α} (hx : Asks x) : Respects R x.run := by
  obtain ⟨answer, hx⟩ := hx
  exact of_same_tree fun w => by rw [hx w]

theorem of_prints {x : WorldStep Unit} {lines : List String} (hx : Prints lines x) :
    Respects R x.run := of_same_tree fun w => by rw [hx w]

theorem print (line : String) : Respects R (Command.print line : WorldStep Unit).run :=
  of_prints (.print line)

/-- A step that may fail is followed by another, unless it does. -/
theorem bindRun {x : WorldStep α} {f : α → WorldStep β} (hx : Respects R x.run)
    (hf : ∀ a, Respects R (f a).run) : Respects R (x >>= f).run := by
  rw [ExceptT.run_bind]
  refine bind hx fun outcome => ?_
  cases outcome with
  | ok a => exact hf a
  | error e => exact pure _

/-- A check that may end the run. -/
theorem ite_throw {c : Prop} [Decidable c] {failure : Failure} {f : Unit → WorldStep α}
    (hf : ∀ a, Respects R (f a).run) :
    Respects R (if c then throw failure >>= f else f ()).run := by
  split
  · exact bindRun (of_asks (.throw failure)) hf
  · exact hf ()

theorem ofFile (contexts : List String) {x : StateM World (Except FileError α)}
    (hx : Respects R x) : Respects R (Attempt.ofFile contexts x).run :=
  bind hx fun outcome => by
    cases outcome with
    | ok _ => exact pure _
    | error e => exact pure _

end Respects

/-! ### Making directories -/

theorem respects_makeDirectory {path : String} (member : path ∈ paths) :
    Respects (OnlyMakes paths)
      (Host.makeDirectory path : StateM World (Except FileError Unit)) := by
  intro w
  change OnlyMakes paths w.tree (w.update (w.tree.makeDirectory path)).2.tree
  cases made : w.tree.makeDirectory path with
  | error e => exact refl_of (OnlyMakes paths) w.tree
  | ok new =>
    obtain ⟨added, files⟩ := makeDirectory_spec made
    exact ⟨added.mono (by simpa using member), files⟩

theorem respects_unlessDirectory [IsPreorder FileTree R] (path : String)
    (outcome : Except FileError Unit) :
    Respects R (unlessDirectory path outcome : StateM World (Except FileError Unit)) := by
  cases outcome with
  | ok _ => exact .pure _
  | error e =>
    refine .bind (.of_same_tree fun _ => rfl) fun there => ?_
    cases there with
    | false => exact .pure _
    | true => exact .pure _

theorem respects_makeNested {above : List String} (sub : above ⊆ paths) :
    Respects (OnlyMakes paths) (makeNested above : StateM World (Except FileError Unit)) := by
  induction above with
  | nil => exact .pure _
  | cons path above ih =>
    -- The set of paths stays the same on the way up; only the list gets shorter.
    obtain ⟨member, sub⟩ := List.cons_subset.mp sub
    refine .bind (respects_makeDirectory member) fun outcome => ?_
    split
    · refine .bind (ih sub) fun made => ?_
      cases made with
      | error e => exact .pure _
      | ok _ =>
        exact .bind (respects_makeDirectory member) fun _ => respects_unlessDirectory path _
    · exact respects_unlessDirectory path outcome

/-! ### Saving -/

theorem run_writeText (contexts : List String) (path text : String) (w : World) :
    (Attempt.ofFile contexts (Host.writeText path text) : WorldStep Unit).run w =
      match w.tree.write path (.text text) with
      | .ok tree => (.ok (), { w with tree := tree })
      | .error e => (.error ⟨contexts, .file e⟩, w) := by
  simp only [Attempt.ofFile, ExceptT.run, ExceptT.mk, Bind.bind, StateT.bind, Host.writeText]
  cases w.tree.write path (.text text) <;> rfl

/-- A step that ends by writing a file at `path`. If it fails, no file has changed. -/
def Saves (path : String) (x : WorldStep α) : Prop :=
  ∀ w result w', x.run w = (result, w') →
    AddsDirectories (Path.directoriesAbove path) w.tree w'.tree ∧
      match result with
      | .ok _ => WritesFile path w.tree w'.tree
      | .error _ => KeepsFiles w.tree w'.tree

namespace Saves

variable {path : String}

/-- Directories may be made before the file is written. -/
theorem bind_onlyMakes {x : WorldStep α} {f : α → WorldStep β}
    (hx : Respects (OnlyMakes (Path.directoriesAbove path)) x.run) (hf : ∀ a, Saves path (f a)) :
    Saves path (x >>= f) := by
  intro w result w' ran
  rcases first : x.run w with ⟨outcome, mid⟩
  obtain ⟨added, kept⟩ := hx.apply first
  cases outcome with
  | error e =>
    rw [run_bind_of_error first] at ran
    cases ran
    exact ⟨added, kept⟩
  | ok a =>
    rw [run_bind_of_ok first] at ran
    obtain ⟨added', ending⟩ := hf a mid result w' ran
    refine ⟨added.trans added', ?_⟩
    cases result with
    | error e => exact fun place => (ending place).trans (kept place)
    | ok b =>
      obtain ⟨place, text, found, files⟩ := ending
      refine ⟨place, text, found, fun other => ?_⟩
      rw [files other, kept other]

theorem bind_asks {x : WorldStep α} {f : α → WorldStep β} (hx : Asks x)
    (hf : ∀ a, Saves path (f a)) : Saves path (x >>= f) := bind_onlyMakes (.of_asks hx) hf

theorem prints_bind {x : WorldStep Unit} {f : Unit → WorldStep β} {lines : List String}
    (hx : Prints lines x) (hf : ∀ a, Saves path (f a)) : Saves path (x >>= f) :=
  bind_onlyMakes (.of_prints hx) hf

/-- What is printed in the end cannot fail. -/
theorem bind_prints {x : WorldStep Unit} {f : Unit → WorldStep Unit} {lines : List String}
    (hx : Saves path x) (hf : ∀ a, Prints lines (f a)) : Saves path (x >>= f) := by
  intro w result w' ran
  rcases first : x.run w with ⟨outcome, mid⟩
  have saved := hx w outcome mid first
  cases outcome with
  | error e =>
    rw [run_bind_of_error first] at ran
    cases ran
    exact saved
  | ok a =>
    rw [run_bind_of_ok first, hf a mid] at ran
    cases ran
    exact saved

/-- A check that may end the step before the file is written. -/
theorem ite_throw {c : Prop} [Decidable c] {failure : Failure} {f : Unit → WorldStep α}
    (hf : ∀ a, Saves path (f a)) : Saves path (if c then throw failure >>= f else f ()) := by
  split
  · exact bind_asks (.throw failure) hf
  · exact hf ()

theorem writeText (contexts : List String) (path text : String) :
    Saves path (Attempt.ofFile contexts (Host.writeText path text) : WorldStep Unit) := by
  intro w result w' ran
  rw [run_writeText] at ran
  cases written : w.tree.write path (.text text) with
  | error e =>
    rw [written] at ran
    cases ran
    exact ⟨.refl _ _, fun _ => rfl⟩
  | ok tree =>
    rw [written] at ran
    cases ran
    obtain ⟨added, files⟩ := write_spec written
    exact ⟨added.mono (List.nil_subset _), files⟩

theorem saveFile (purpose path text : String) : Saves path (saveFile purpose path text) :=
  bind_onlyMakes (.ofFile [] (respects_makeNested (List.Subset.refl _)))
    fun _ => writeText _ path text

end Saves

end WorldStep

end FermiQuiz
