import Mathlib
import FermiQuiz.Store.Files
import FermiQuiz.Store.World

/-!
# Saved files

What is saved at a path is what is read there next. The directories on the way to a file are not
changed by writing it, so the path still leads to the same place.
-/

namespace FermiQuiz

/-! ### File trees -/

namespace FileTree

variable {tree : FileTree} {place other : List String} {node : Node}

theorem node?_put_self (inner : place ≠ []) : (tree.put place node).node? place = some node := by
  unfold node? put
  rw [if_neg (by simpa using inner)]
  exact List.lookup_cons_self

theorem node?_put_of_ne (apart : other ≠ place) :
    (tree.put place node).node? other = tree.node? other := by
  unfold node? put
  have unequal : (other == place) = false := by simpa using apart
  simp only [List.lookup_cons, unequal]
  split
  · rfl
  · induction tree.entries with
    | nil => rfl
    | cons entry entries ih =>
      obtain ⟨key, found⟩ := entry
      by_cases same : key = place
      · subst same
        rw [List.filter_cons_of_neg (by simp), List.lookup_cons, unequal]
        exact ih
      · rw [List.filter_cons_of_pos (by simpa using same), List.lookup_cons, List.lookup_cons, ih]

/-- A walk that ends at no directory passes through others only. -/
theorem walk_put {start : List String} {names : List String}
    (walked : tree.walk start names = .ok place) (free : tree.node? place ≠ some .directory) :
    (tree.put place node).walk start names = .ok place := by
  induction names generalizing start with
  | nil => exact walked
  | cons name names ih =>
    rw [walk] at walked ⊢
    cases here : tree.node? start with
    | none =>
      rw [here] at walked
      cases walked
    | some found =>
      cases found with
      | file content =>
        rw [here] at walked
        cases walked
      | directory =>
        -- The walk has not ended here, or `place` would be a directory.
        have apart : start ≠ place := by
          rintro rfl
          exact free here
        rw [here] at walked
        rw [node?_put_of_ne apart, here]
        dsimp only at walked ⊢
        split_ifs at walked ⊢ with idle up long
        · exact ih walked
        · exact ih walked
        · exact ih walked

theorem findNames_put {path : String} {names : List String}
    (found : tree.findNames path names = .ok place) (free : tree.node? place ≠ some .directory) :
    (tree.put place node).findNames path names = .ok place := by
  unfold findNames at found ⊢
  split_ifs at found ⊢
  exact walk_put found free
  exact walk_put found free

theorem write_eq_ok {path : String} {content : Content} {tree' : FileTree}
    (h : tree.write path content = .ok tree') :
    ∃ place, tree.find path = .ok place ∧ tree.node? place ≠ some .directory ∧
      tree' = tree.put place (.file content) := by
  unfold write at h
  split at h
  · cases reached : tree.findNames path ((Path.bareNames path).dropLast ++ ["."]) with
    | error e =>
      rw [reached] at h
      cases h
    | ok place =>
      rw [reached] at h
      cases h
  · cases reached : tree.find path with
    | error e =>
      rw [reached] at h
      cases h
    | ok place =>
      rw [reached] at h
      change (if tree.node? place = some .directory then _ else _) = _ at h
      split at h
      · cases h
      · next free =>
        cases h
        exact ⟨place, rfl, free, rfl⟩

theorem readText_eq {path s : String} (found : tree.find path = .ok place)
    (held : tree.node? place = some (.file (.text s))) : tree.readText path = .ok s := by
  unfold readText
  rw [found]
  simp only [bind, Except.bind, held]

theorem read_of_write {path s : String} {tree' : FileTree}
    (h : tree.write path (.text s) = .ok tree') :
    tree'.isPresent path = true ∧ tree'.readText path = .ok s := by
  obtain ⟨place, found, free, rfl⟩ := write_eq_ok h
  have inner : place ≠ [] := by
    rintro rfl
    exact free rfl
  have found' : (tree.put place (.file (.text s))).find path = .ok place := findNames_put found free
  constructor
  · rw [isPresent, found']
    dsimp only
    rw [node?_put_self inner]
    rfl
  · exact readText_eq found' (node?_put_self inner)

end FileTree

/-! ### Steps in a world -/

abbrev WorldStep (α : Type) := Attempt (StateM World) α

namespace WorldStep

variable {α β : Type} {w w' : World}

theorem run_ofFile_eq_ok {contexts : List String} {x : StateM World (Except FileError α)} {a : α} :
    (Attempt.ofFile contexts x : WorldStep α).run w = (.ok a, w') ↔ x w = (.ok a, w') := by
  rcases ran : x w with ⟨outcome, w₁⟩
  have step : (Attempt.ofFile contexts x : WorldStep α).run w =
      (outcome.mapError fun e => Failure.mk contexts (.file e), w₁) := by
    simp only [Attempt.ofFile, ExceptT.run, ExceptT.mk, bind, StateT.bind, ran]
    cases outcome <;> rfl
  rw [step]
  cases outcome with
  | ok b =>
    constructor
    · intro same
      cases same
      rfl
    · intro same
      cases same
      rfl
  | error e =>
    constructor
    · intro same
      cases same
    · intro same
      cases same

theorem run_bind_of_ok {x : WorldStep α} {a : α} (ran : x.run w = (.ok a, w'))
    (f : α → WorldStep β) : (x >>= f).run w = (f a).run w' := by
  rw [ExceptT.run_bind]
  simp only [bind, StateT.bind, ran]

theorem exists_of_run_bind {x : WorldStep α} {f : α → WorldStep β} {b : β}
    (h : (x >>= f).run w = (.ok b, w')) :
    ∃ a w₁, x.run w = (.ok a, w₁) ∧ (f a).run w₁ = (.ok b, w') := by
  rcases ran : x.run w with ⟨outcome, w₁⟩
  cases outcome with
  | ok a =>
    rw [run_bind_of_ok ran] at h
    exact ⟨a, w₁, rfl, h⟩
  | error e =>
    rw [ExceptT.run_bind] at h
    simp only [bind, StateT.bind, ran] at h
    cases h

/-- The step succeeds, and the world stays as it was. -/
def Succeeds (x : WorldStep α) (w : World) : Prop := ∃ a, x.run w = (.ok a, w)

theorem succeeds_iff_of_run {x : WorldStep α} {outcome : Except Failure α}
    (ran : x.run w = (outcome, w)) : Succeeds x w ↔ ∃ a, outcome = .ok a := by
  unfold Succeeds
  rw [ran]
  constructor
  · rintro ⟨a, same⟩
    cases same
    exact ⟨a, rfl⟩
  · rintro ⟨a, rfl⟩
    exact ⟨a, rfl⟩

end WorldStep

/-! ### Saving and loading -/

section

open WorldStep

variable {w w' : World} {purpose path text : String} {α : Type}

theorem read_of_saveFile (h : (saveFile purpose path text : WorldStep Unit).run w = (.ok (), w')) :
    w'.tree.isPresent path = true ∧ w'.tree.readText path = .ok text := by
  obtain ⟨-, w₁, -, written⟩ := exists_of_run_bind h
  have done : w₁.update (w₁.tree.write path (.text text)) = (.ok (), w') :=
    run_ofFile_eq_ok.mp written
  cases outcome : w₁.tree.write path (.text text) with
  | error e =>
    rw [outcome] at done
    cases done
  | ok tree =>
    rw [outcome] at done
    cases done
    exact FileTree.read_of_write outcome

/-- A file can be saved under a name at which there is no directory. -/
theorem exists_saveFile {place : List String} (flat : Path.directoriesAbove path = [])
    (named : path.endsWith "/" = false) (found : w.tree.find path = .ok place)
    (free : w.tree.node? place ≠ some .directory) :
    ∃ w', (saveFile purpose path text : WorldStep Unit).run w = (.ok (), w') := by
  have made : (Attempt.ofFile [] (makeNested (Path.directoriesAbove path)) : WorldStep Unit).run w =
      (.ok (), w) := by
    rw [flat]
    exact run_ofFile_eq_ok.mpr rfl
  have written : w.tree.write path (.text text) =
      .ok (w.tree.put place (.file (.text text))) := by
    rw [FileTree.write, named, if_neg Bool.false_ne_true, found]
    exact if_neg free
  unfold saveFile
  rw [run_bind_of_ok made]
  refine ⟨{ w with tree := w.tree.put place (.file (.text text)) }, run_ofFile_eq_ok.mpr ?_⟩
  change w.update (w.tree.write path (.text text)) = _
  rw [written]
  rfl

theorem run_readFile (held : w.tree.readText path = .ok text) :
    (readFile purpose path : WorldStep String).run w = (.ok text, w) := by
  refine run_ofFile_eq_ok.mpr ?_
  change (w.tree.readText path, w) = _
  rw [held]

theorem run_loadList {read : String → Option (List α)} (present : w.tree.isPresent path = true)
    (held : w.tree.readText path = .ok text) :
    (loadList purpose read path : WorldStep (List α)).run w = (match read text with
      | some xs => .ok xs
      | none => .error ⟨["failed to parse " ++ purpose ++ ": " ++ path], .json⟩, w) := by
  have looked : (liftM (Host.isPresent path : StateM World Bool) : WorldStep Bool).run w =
      (.ok true, w) := by
    change (Except.ok (w.tree.isPresent path), w) = _
    rw [present]
  unfold loadList
  rw [run_bind_of_ok looked, if_pos rfl, run_bind_of_ok (run_readFile held)]
  cases read text <;> rfl

theorem run_loadDataset (held : w.tree.readText path = .ok text) :
    (loadDataset path : WorldStep Dataset).run w =
      ((Dataset.ofText text).mapError (·.within ("invalid dataset: " ++ path)), w) := by
  unfold loadDataset
  rw [run_bind_of_ok (run_readFile held)]
  cases Dataset.ofText text <;> rfl

theorem succeeds_loadList_iff {read : String → Option (List α)}
    (present : w.tree.isPresent path = true) (held : w.tree.readText path = .ok text) :
    Succeeds (loadList purpose read path) w ↔ (read text).isSome = true := by
  rw [succeeds_iff_of_run (run_loadList present held)]
  cases read text with
  | none => simp
  | some xs => simp

theorem succeeds_loadFacts_iff (present : w.tree.isPresent path = true)
    (held : w.tree.readText path = .ok text) :
    Succeeds (loadFacts path) w ↔ (readFacts? text).isSome = true :=
  succeeds_loadList_iff present held

theorem succeeds_loadQuestions_iff (present : w.tree.isPresent path = true)
    (held : w.tree.readText path = .ok text) :
    Succeeds (loadQuestions path) w ↔ (readQuestions? text).isSome = true := by
  have listed : Succeeds (loadList "questions" readQuestions? path) w ↔ _ :=
    succeeds_loadList_iff present held
  rw [← listed]
  constructor
  · rintro ⟨qs, ran⟩
    obtain ⟨ps, w₁, loaded, cleaned⟩ := exists_of_run_bind ran
    cases cleaned
    exact ⟨ps, loaded⟩
  · rintro ⟨qs, loaded⟩
    exact ⟨qs.map Question.normalize, run_bind_of_ok loaded _⟩

theorem succeeds_loadDataset_iff (held : w.tree.readText path = .ok text) :
    Succeeds (loadDataset path) w ↔ ∃ d, Dataset.ofText text = .ok d := by
  rw [succeeds_iff_of_run (run_loadDataset held)]
  cases Dataset.ofText text with
  | error e => simp [Except.mapError]
  | ok d => simp [Except.mapError]

end

def emptyWorld : World where
  tree := .bare ["home"]
  environment := .ofList []

end FermiQuiz
