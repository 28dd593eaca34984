import Mathlib
import FermiQuiz.Proofs.Store.Writing

/-!
# Files that are saved again

A file that was saved can be saved again. The directory it lies in is there already, and writing
the text that is there changes nothing.
-/

namespace FermiQuiz

/-! ### Paths -/

namespace Text

theorem splitAt_ne_nil (separator : Char) (cs : List Char) : splitAt separator cs ≠ [] := by
  induction cs with
  | nil => exact List.cons_ne_nil _ _
  | cons c cs ih =>
    rw [splitAt]
    split_ifs
    · exact List.cons_ne_nil _ _
    · cases splitAt separator cs <;> exact List.cons_ne_nil _ _

theorem splitAt_append_cons (separator : Char) (cs ds : List Char) :
    splitAt separator (cs ++ separator :: ds) = splitAt separator cs ++ splitAt separator ds := by
  induction cs with
  | nil =>
    simp only [List.nil_append, splitAt, if_pos]
    rfl
  | cons c cs ih =>
    rw [List.cons_append, splitAt, splitAt, ih]
    split_ifs
    · rfl
    · obtain ⟨piece, pieces, pieces_eq⟩ := List.exists_cons_of_ne_nil (splitAt_ne_nil separator cs)
      rw [pieces_eq]
      rfl

theorem intercalate_splitAt (separator : Char) (cs : List Char) :
    [separator].intercalate (splitAt separator cs) = cs := by
  induction cs with
  | nil => rfl
  | cons c cs ih =>
    obtain ⟨piece, pieces, pieces_eq⟩ := List.exists_cons_of_ne_nil (splitAt_ne_nil separator cs)
    rw [splitAt]
    split_ifs with same
    · rw [List.intercalate_cons_of_ne_nil (splitAt_ne_nil separator cs), ih, same]
      rfl
    · rw [pieces_eq] at ih ⊢
      rw [← ih]
      cases pieces <;> simp [List.intercalate, List.intersperse]

end Text

namespace Path

theorem names_append_through (path : String) : names (path ++ "/.") = names path ++ ["."] := by
  rw [names, String.toList_append]
  change (Text.splitAt '/' (path.toList ++ '/' :: ['.'])).map _ = _
  rw [Text.splitAt_append_cons, List.map_append]
  rfl

theorem isAbsolute_append_through {path : String} (named : path ≠ "") :
    isAbsolute (path ++ "/.") = isAbsolute path := by
  rw [isAbsolute, isAbsolute, Bool.eq_iff_iff, String.startsWith_string_iff,
    String.startsWith_string_iff, String.toList_append]
  cases spelled : path.toList with
  | nil => exact absurd (String.toList_eq_nil_iff.mp spelled) named
  | cons c cs => simp

/-- A path is its names and, after them, empty ones, which are as idle as the name of a directory. -/
theorem exists_slashes (path : String) : ∃ slashes, names path = bareNames path ++ slashes ∧
    ∀ name ∈ slashes ++ ["."], isIdleName name = true := by
  refine ⟨((names path).reverse.takeWhile (· = "")).reverse, ?_, ?_⟩
  · rw [bareNames, ← List.reverse_append, List.takeWhile_append_dropWhile, List.reverse_reverse]
  · intro name member
    obtain slash | dot := List.mem_append.mp member
    · have empty := List.mem_takeWhile_imp (List.mem_reverse.mp slash)
      simp [isIdleName, of_decide_eq_true empty]
    · simp [isIdleName, List.mem_singleton.mp dot]

theorem intercalate_names (path : String) : String.intercalate "/" (names path) = path := by
  rw [← String.toList_inj, String.toList_intercalate, names, List.map_map]
  have same : String.toList ∘ String.ofList = id := funext fun _ => String.toList_ofList
  rw [same, List.map_id]
  exact Text.intercalate_splitAt '/' path.toList

theorem intercalate_append {before after : List String} (some_before : before ≠ [])
    (some_after : after ≠ []) : String.intercalate "/" (before ++ after) =
      String.intercalate "/" before ++ "/" ++ String.intercalate "/" after := by
  obtain ⟨first, rest, rfl⟩ := List.exists_cons_of_ne_nil some_after
  induction before with
  | nil => exact absurd rfl some_before
  | cons name before ih =>
    cases before with
    | nil =>
      rw [List.singleton_append, String.intercalate_cons_cons, String.intercalate_singleton]
    | cons next before =>
      rw [List.cons_append, List.cons_append, String.intercalate_cons_cons, ← List.cons_append,
        ih (List.cons_ne_nil _ _), String.intercalate_cons_cons]
      simp only [String.append_assoc]

theorem intercalate_ne_empty {names : List String} {name : String} (member : name ∈ names)
    (named : name ≠ "") : String.intercalate "/" names ≠ "" := by
  match names, member with
  | [only], member =>
    rw [List.mem_singleton] at member
    rwa [String.intercalate_singleton, ← member]
  | first :: second :: rest, _ =>
    rw [String.intercalate_cons_cons]
    simp

theorem ne_empty_of_busy {name : String} (busy : isIdleName name = false) : name ≠ "" := by
  rintro rfl
  cases busy

/-- The directories that names lead through start with one that some of the names spell. -/
theorem eq_of_directoriesTo {absolute : Bool} {backwards : List String} {path : String}
    {above : List String} (led : directoriesTo absolute backwards = path :: above) :
    path = "/" ∨ ∃ name before idle, backwards = idle ++ name :: before ∧ isIdleName name = false ∧
      path = String.intercalate "/" (name :: before).reverse := by
  induction backwards with
  | nil =>
    cases absolute
    · cases led
    · cases led
      exact Or.inl rfl
  | cons name before ih =>
    rw [directoriesTo] at led
    split_ifs at led with idle
    · obtain root | ⟨name', before', skipped, split, rest⟩ := ih led
      · exact Or.inl root
      · exact Or.inr ⟨name', before', name :: skipped, by rw [split]; rfl, rest⟩
    · cases led
      exact Or.inr ⟨name, before, [], rfl, by simpa using idle, rfl⟩

theorem eq_append_of_dropWhile {α : Type} {p : α → Bool} {xs before : List α} {x : α}
    (dropped : xs.reverse.dropWhile p = x :: before) :
    p x = false ∧ ∃ after, xs = before.reverse ++ x :: after := by
  constructor
  · have head := List.head_dropWhile_not (p := p) (l := xs.reverse) (by simp [dropped])
    simpa only [dropped, List.head_cons] using head
  · refine ⟨(xs.reverse.takeWhile p).reverse, ?_⟩
    have whole := List.takeWhile_append_dropWhile (p := p) (l := xs.reverse)
    rw [dropped] at whole
    rw [← List.reverse_inj]
    simpa using whole.symm

/-- The directory that a file lies in is named by a part of the path to the file. -/
theorem nearest_directory {path directory : String} {above : List String}
    (led : directoriesAbove path = directory :: above) :
    directory ≠ "" ∧ directory.utf8ByteSize + 2 ≤ max 3 path.utf8ByteSize := by
  unfold directoriesAbove at led
  cases trimmed : (names path).reverse.dropWhile isIdleName with
  | nil =>
    rw [trimmed] at led
    cases led
  | cons leaf before =>
    obtain ⟨busy_leaf, after, listed⟩ := eq_append_of_dropWhile trimmed
    rw [trimmed] at led
    obtain rfl | ⟨name, before', idle, rfl, busy, rfl⟩ := eq_of_directoriesTo led
    · exact ⟨by decide, Nat.le_max_left 3 _⟩
    · refine ⟨intercalate_ne_empty (List.mem_reverse.mpr List.mem_cons_self)
        (ne_empty_of_busy busy), le_max_of_le_right ?_⟩
      have rest_named : String.intercalate "/" (idle.reverse ++ leaf :: after) ≠ "" :=
        intercalate_ne_empty (List.mem_append_right _ List.mem_cons_self)
          (ne_empty_of_busy busy_leaf)
      have spelled : path = String.intercalate "/" (name :: before').reverse ++ "/" ++
          String.intercalate "/" (idle.reverse ++ leaf :: after) := by
        rw [← intercalate_append (by simp) (by simp), ← intercalate_names path, listed]
        simp
      have size := congrArg String.utf8ByteSize spelled
      rw [String.utf8ByteSize_append, String.utf8ByteSize_append] at size
      have slash : "/".utf8ByteSize = 1 := rfl
      have rest_size := String.utf8ByteSize_eq_zero_iff.not.mpr rest_named
      omega

end Path

/-! ### Directories -/

namespace FileTree

variable {tree old new : FileTree} {path : String} {start place : List String}
  {paths names names' : List String}

theorem walk_append : tree.walk start (names ++ names') =
    (tree.walk start names).bind (tree.walk · names') := by
  induction names generalizing start with
  | nil => rfl
  | cons name names ih =>
    rw [List.cons_append, walk, walk]
    cases tree.node? start with
    | none => rfl
    | some node =>
      cases node with
      | file content => rfl
      | directory =>
        dsimp only
        split_ifs
        · exact ih
        · exact ih
        · rfl
        · exact ih

/-- Idle names lead nowhere else, and only from a directory. -/
theorem walk_idle_iff (idle : ∀ name ∈ names, Path.isIdleName name = true)
    (some_name : names ≠ []) :
    tree.walk start names = .ok place ↔ place = start ∧ tree.node? start = some .directory := by
  induction names with
  | nil => exact absurd rfl some_name
  | cons name names ih =>
    rw [List.forall_mem_cons] at idle
    rw [walk, if_pos idle.1]
    cases here : tree.node? start with
    | none => simp
    | some node =>
      cases node with
      | file content => simp
      | directory =>
        cases names with
        | nil =>
          simp only [walk, Except.ok.injEq, and_true]
          exact eq_comm
        | cons next names =>
          rw [here] at ih
          exact ih idle.2 (List.cons_ne_nil _ _)

/-- There is a directory where the path leads. -/
def HasDirectory (tree : FileTree) (path : String) : Prop :=
  ∃ place, tree.findNames path (Path.bareNames path) = .ok place ∧
    tree.node? place = some .directory

theorem HasDirectory.mono (there : old.HasDirectory path) (h : AddsDirectories paths old new) :
    new.HasDirectory path := by
  obtain ⟨place, found, directory⟩ := there
  exact ⟨place, h.findNames found, h.kept place directory⟩

theorem makeDirectory_of_hasDirectory (there : tree.HasDirectory path) :
    tree.makeDirectory path = .error .alreadyExists := by
  obtain ⟨place, found, directory⟩ := there
  rw [makeDirectory, found]
  change (if (tree.node? place).isSome then _ else _) = _
  rw [directory]
  rfl

theorem hasDirectory_of_makeDirectory (made : old.makeDirectory path = .ok new) :
    new.HasDirectory path := by
  obtain ⟨place, found, absent, inner, rfl⟩ := makeDirectory_eq_ok made
  exact ⟨place, findNames_put found (by simp [absent]), node?_put_self inner⟩

/-- Through a directory there is a way back to it, if there is room for two more characters. -/
theorem find_through_iff (named : path ≠ "") (short : path.utf8ByteSize + 2 ≤ Path.longest) :
    tree.find (path ++ "/.") = .ok place ↔
      tree.findNames path (Path.bareNames path) = .ok place ∧
        tree.node? place = some .directory := by
  have zeros : (path ++ "/.").toList.contains '\x00' = path.toList.contains '\x00' := by
    rw [String.toList_append, Bool.eq_iff_iff]
    simp
  have size : (path ++ "/.").utf8ByteSize = path.utf8ByteSize + 2 := String.utf8ByteSize_append
  obtain ⟨slashes, split, idle⟩ := Path.exists_slashes path
  have walked (start : List String) : tree.walk start (Path.names path ++ ["."]) = .ok place ↔
      tree.walk start (Path.bareNames path) = .ok place ∧ tree.node? place = some .directory := by
    rw [split, List.append_assoc, walk_append]
    cases tree.walk start (Path.bareNames path) with
    | error e => simp [Except.bind]
    | ok reached =>
      refine (walk_idle_iff idle (by simp)).trans ⟨?_, ?_⟩
      · rintro ⟨rfl, directory⟩
        exact ⟨rfl, directory⟩
      · rintro ⟨⟨⟩, directory⟩
        exact ⟨rfl, directory⟩
  have longer : path ++ "/." ≠ "" := by simp
  have fits : ¬ Path.longest < path.utf8ByteSize := by omega
  have fits' : ¬ Path.longest < path.utf8ByteSize + 2 := by omega
  rw [find, findNames, findNames, Path.names_append_through, Path.isAbsolute_append_through named,
    zeros, size, if_neg longer, if_neg named, if_neg fits, if_neg fits']
  split
  · simp
  · exact walked _

theorem isPresent_through_iff (named : path ≠ "")
    (short : path.utf8ByteSize + 2 ≤ Path.longest) :
    tree.isPresent (path ++ "/.") = true ↔ tree.HasDirectory path := by
  have present : tree.isPresent (path ++ "/.") = true ↔
      ∃ place, tree.find (path ++ "/.") = .ok place ∧ (tree.node? place).isSome = true := by
    rw [isPresent]
    cases tree.find (path ++ "/.") <;> simp
  rw [present]
  refine exists_congr fun place => ?_
  rw [find_through_iff named short]
  refine and_iff_left_of_imp fun found => ?_
  rw [found.2]
  rfl

theorem size_le_of_findNames (found : tree.findNames path names = .ok place) :
    path.utf8ByteSize ≤ Path.longest := by
  by_contra long
  unfold findNames at found
  split_ifs at found
  · omega
  · omega

theorem put_put {node : Node} : (tree.put place node).put place node = tree.put place node := by
  simp [put]

theorem endsWith_of_write {content : Content} (written : old.write path content = .ok new) :
    path.endsWith "/" = false := by
  by_contra slash
  rw [write, if_pos (by simpa using slash)] at written
  cases reached : old.findNames path ((Path.bareNames path).dropLast ++ ["."]) with
  | error e =>
    rw [reached] at written
    cases written
  | ok place =>
    rw [reached] at written
    cases written

/-- A file that is written again stays as it is. -/
theorem write_again {content : Content} (written : old.write path content = .ok new) :
    new.write path content = .ok new := by
  have bare := endsWith_of_write written
  obtain ⟨place, found, free, rfl⟩ := write_eq_ok written
  have inner : place ≠ [] := by
    rintro rfl
    exact free rfl
  have found' : (old.put place (.file content)).find path = .ok place := findNames_put found free
  rw [write, bare, if_neg Bool.false_ne_true, found']
  change (if (old.put place (.file content)).node? place = some .directory then _ else _) = _
  rw [node?_put_self inner, if_neg (by simp), put_put]

end FileTree

/-! ### Steps -/

namespace WorldStep

open FileTree

variable {w w' : World} {path : String} {above : List String}

theorem run_unlessDirectory_error (path : String) (e : FileError) (w : World) :
    (unlessDirectory path (.error e) : StateM World (Except FileError Unit)) w =
      if w.tree.isPresent (path ++ "/.") then (.ok (), w) else (.error e, w) := by
  change (if w.tree.isPresent (path ++ "/.") then _ else _ : StateM World _) w = _
  split <;> rfl

theorem run_makeDirectory (path : String) (w : World) :
    (Host.makeDirectory path : StateM World (Except FileError Unit)) w =
      w.update (w.tree.makeDirectory path) := rfl

section

variable (named : path ≠ "") (short : path.utf8ByteSize + 2 ≤ Path.longest)

include named short

/-- Making a directory that may have been there before leaves one there. -/
theorem hasDirectory_of_unlessDirectory {outcome : Except FileError Unit} {w₁ : World}
    (made : (Host.makeDirectory path : StateM World (Except FileError Unit)) w = (outcome, w₁))
    (ran : (unlessDirectory path outcome : StateM World (Except FileError Unit)) w₁ =
      (.ok (), w')) : w'.tree.HasDirectory path := by
  rw [run_makeDirectory] at made
  cases outcome with
  | ok _ =>
    cases ran
    cases built : w.tree.makeDirectory path with
    | error e =>
      rw [built] at made
      cases made
    | ok tree =>
      rw [built] at made
      cases made
      exact hasDirectory_of_makeDirectory built
  | error e =>
    rw [run_unlessDirectory_error] at ran
    split at ran
    · next present =>
      cases ran
      exact (isPresent_through_iff named short).mp present
    · cases ran

theorem hasDirectory_of_makeNested
    (ran : (makeNested (path :: above) : StateM World (Except FileError Unit)) w = (.ok (), w')) :
    w'.tree.HasDirectory path := by
  unfold makeNested at ran
  rcases made : (Host.makeDirectory path : StateM World (Except FileError Unit)) w
    with ⟨outcome, w₁⟩
  simp only [bind, StateT.bind, made] at ran
  split at ran
  · rcases nested : (makeNested above : StateM World (Except FileError Unit)) w₁ with ⟨result, w₂⟩
    simp only [StateT.bind, nested] at ran
    cases result with
    | error e => cases ran
    | ok _ =>
      exact hasDirectory_of_unlessDirectory named short rfl ran
  · exact hasDirectory_of_unlessDirectory named short made ran

theorem makeNested_of_hasDirectory (there : w.tree.HasDirectory path) :
    (makeNested (path :: above) : StateM World (Except FileError Unit)) w = (.ok (), w) := by
  have made : (Host.makeDirectory path : StateM World (Except FileError Unit)) w =
      (.error .alreadyExists, w) := by
    rw [run_makeDirectory, makeDirectory_of_hasDirectory there]
    rfl
  unfold makeNested
  simp only [bind, StateT.bind, made]
  rw [run_unlessDirectory_error, (isPresent_through_iff named short).mpr there]
  rfl

end

/-- A file that was saved can be saved again, and that changes nothing. -/
theorem saveFile_again {purpose text : String}
    (saved : (saveFile purpose path text : WorldStep Unit).run w = (.ok (), w')) :
    (saveFile purpose path text : WorldStep Unit).run w' = (.ok (), w') := by
  obtain ⟨⟨⟩, w₁, nested, written⟩ := exists_of_run_bind saved
  have nested := run_ofFile_eq_ok.mp nested
  rw [run_writeText] at written
  cases wrote : w₁.tree.write path (.text text) with
  | error e =>
    rw [wrote] at written
    cases written
  | ok tree =>
    rw [wrote] at written
    cases written
    obtain ⟨place, found, -, -⟩ := write_eq_ok wrote
    have fits := size_le_of_findNames found
    have kept := (write_spec wrote).1
    have nested' : (Attempt.ofFile [] (makeNested (Path.directoriesAbove path)) :
        WorldStep Unit).run { w₁ with tree := tree } = (.ok (), { w₁ with tree := tree }) := by
      refine run_ofFile_eq_ok.mpr ?_
      cases led : Path.directoriesAbove path with
      | nil => rfl
      | cons directory above =>
        obtain ⟨named, shorter⟩ := Path.nearest_directory led
        have short : directory.utf8ByteSize + 2 ≤ Path.longest :=
          shorter.trans (max_le (by decide) fits)
        rw [led] at nested
        exact makeNested_of_hasDirectory named short
          ((hasDirectory_of_makeNested named short nested).mono kept)
    unfold saveFile
    rw [run_bind_of_ok nested', run_writeText, write_again wrote]

end WorldStep

end FermiQuiz
