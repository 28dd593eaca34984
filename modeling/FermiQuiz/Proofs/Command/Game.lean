import Mathlib
import FermiQuiz.Proofs.Command.Arguments
import FermiQuiz.Proofs.Command.Effects
import FermiQuiz.Proofs.Playable

/-!
# Games on the command line

A game that is shown ends with a line for guessing at it. The line names the game by its seed and
not by the dataset and the configuration that were asked for, so that it leads back to the game
shown only if neither was.
-/

namespace FermiQuiz

open Number (Elementary isPositive naturalText)
open WorldStep

namespace Command

variable {moment moment' : Moment} {choice choice' : GameChoice} {game : Game} {w w' : World}

/-! ### The game -/

theorem openGame_congr (seed : choice.occasion.seedAt moment = choice'.occasion.seedAt moment')
    (dataset : choice.dataset = choice'.dataset) (config : choice.config = choice'.config) :
    (openGame moment choice : WorldStep Game) = openGame moment' choice' := by
  unfold openGame
  rw [seed, dataset, config]

theorem exists_of_openGame
    (opened : (openGame moment choice : WorldStep Game).run w = (.ok game, w')) :
    w' = w ∧ game.seed = choice.occasion.seedAt moment ∧
      seededQuestion game.dataset game.seed = .ok game.question := by
  refine ⟨(Asks.openGame moment choice).world_eq opened, ?_⟩
  obtain ⟨settings, w₁, -, opened⟩ := exists_of_run_bind opened
  obtain ⟨d, w₂, -, opened⟩ := exists_of_run_bind opened
  obtain ⟨q, w₃, drawn, opened⟩ := exists_of_run_bind opened
  cases opened
  exact ⟨rfl, (run_ofGame_eq_ok.mp drawn).1⟩

/-- A dataset with a question is all that a game needs. -/
theorem exists_openGame (moment : Moment) {settings : Settings} {dataset : Dataset}
    (configured : (Settings.load choice.config : WorldStep Settings).run w = (.ok settings, w))
    (accepted : (loadOrBundled (choice.dataset <|> settings.dataset) : WorldStep Dataset).run w =
      (.ok dataset, w))
    (filled : dataset.questions ≠ []) :
    ∃ q ∈ dataset.questions, (openGame moment choice : WorldStep Game).run w =
      (.ok ⟨settings, dataset, choice.occasion.seedAt moment, q⟩, w) := by
  obtain ⟨q, member, drawn⟩ :=
    drawQuestion_of_nonempty filled (questionStream (choice.occasion.seedAt moment))
  have seeded : seededQuestion dataset (choice.occasion.seedAt moment) = .ok q := drawn
  refine ⟨q, member, ?_⟩
  unfold openGame
  rw [run_bind_of_ok configured, run_bind_of_ok accepted]
  dsimp only
  rw [seeded, run_bind_of_ok (run_ofGame_eq_ok.mpr ⟨rfl, rfl⟩)]
  rfl

/-! ### Showing a game -/

/-- The line that tells how to guess at the game of a seed. -/
def guessLine (seed : UInt64) : String :=
  "Guess with: " ++ String.intercalate " " ("fermidle" :: guessArguments "<NUMBER>" seed)

/-- The lines that show a game. The last one holds the arguments of a guess. -/
def shownLines (game : Game) : List String :=
  ("Fermidle #" ++ naturalText game.seed.toNat) :: "" :: game.question.prompt ::
    (game.question.figures.map figureLine ++ ["", guessLine game.seed])

theorem guessLine_eq (seed : UInt64) :
    guessLine seed = "Guess with: fermidle guess <NUMBER> --seed " ++ naturalText seed.toNat := by
  have words : guessLine seed = "Guess with: " ++ ("fermidle" ++ " " ++ "guess" ++ " " ++
      "<NUMBER>" ++ " " ++ "--seed" ++ " " ++ naturalText seed.toNat) := rfl
  apply String.toList_inj.mp
  simp only [words, String.toList_append]
  rfl

theorem run_runDaily (opened : (openGame moment choice : WorldStep Game).run w = (.ok game, w)) :
    (runDaily moment choice false false : WorldStep Unit).run w =
      (.ok (), { w with printed := w.printed ++ linesText (shownLines game) }) := by
  unfold runDaily
  rw [run_bind_of_ok opened, shownLines, guessLine_eq]
  exact Prints.bind (.print _) (fun _ => .bind (.print _) fun _ => .bind (.print _) fun _ =>
    .bind (.forM figureLine _) fun _ => .bind (.print _) fun _ => .print _) w

/-! ### Guessing -/

theorem head_message_of_not_correct {hint : Hint} (wrong : hint.isCorrect = false) :
    hint.message.toList.head? = some 'T' := by
  cases hint with
  | correct => cases wrong
  | plain direction factor =>
    cases direction <;> simp [Hint.message, Direction.message, String.toList_append]
  | closer direction question =>
    cases direction <;> simp [Hint.message, Direction.message, String.toList_append]

section

variable [Elementary]

theorem run_runGuess {x : Float} {attempt : UInt32} (counted : attempt ≠ 0)
    (opened : (openGame moment choice : WorldStep Game).run w = (.ok game, w)) {hint : Hint}
    (drawn : (drawHint game.settings.hint game.dataset game.question x
      (hintStream game.seed attempt)).1 = .ok hint) :
    (runGuess moment x attempt choice false : WorldStep Unit).run w =
      (do
        print hint.message
        if hint.isCorrect then
          print ("The answer was " ++ (← .ofGame (answerText game.question.answer)) ++ ".") :
        WorldStep Unit).run w := by
  unfold runGuess
  simp only [Bool.false_eq_true, if_false, if_neg counted]
  rw [run_bind_of_ok opened, drawn, run_bind_of_ok (run_ofGame_eq_ok.mpr ⟨rfl, rfl⟩)]

theorem exists_openGame_of_runGuess {x : Float} {attempt : UInt32} (counted : attempt ≠ 0)
    (ran : (runGuess moment x attempt choice false : WorldStep Unit).run w = (.ok (), w')) :
    ∃ game, (openGame moment choice : WorldStep Game).run w = (.ok game, w) := by
  unfold runGuess at ran
  simp only [Bool.false_eq_true, if_false, if_neg counted] at ran
  obtain ⟨game, w₁, opened, -⟩ := exists_of_run_bind ran
  obtain ⟨rfl, -⟩ := exists_of_openGame opened
  exact ⟨game, opened⟩

theorem run_runGuess_correct {x : Float} {attempt : UInt32} (counted : attempt ≠ 0)
    (opened : (openGame moment choice : WorldStep Game).run w = (.ok game, w)) {m : ℤ}
    (guessed : magnitude x = .ok m) (sought : magnitude game.question.answer = .ok m) :
    ∃ text, answerText game.question.answer = .ok text ∧
      (runGuess moment x attempt choice false : WorldStep Unit).run w = (.ok (), { w with
        printed := w.printed ++ linesText ["Correct!", "The answer was " ++ text ++ "."] }) := by
  have text := answerText_of_scientific (scientific_of_magnitude sought 2)
  have correct := congrArg Prod.fst (drawHint_of_magnitude_eq game.settings.hint game.dataset
    guessed sought (hintStream game.seed attempt))
  refine ⟨_, text, ?_⟩
  rw [run_runGuess counted opened correct, text]
  exact Prints.bind (.print "Correct!") (fun _ => .print _) w

theorem run_runGuess_wrong {x : Float} {attempt : UInt32} (counted : attempt ≠ 0)
    (opened : (openGame moment choice : WorldStep Game).run w = (.ok game, w)) {k m : ℤ}
    (guessed : magnitude x = .ok k) (sought : magnitude game.question.answer = .ok m)
    (other : k ≠ m) :
    ∃ message : String, message.toList.head? = some 'T' ∧
      (runGuess moment x attempt choice false : WorldStep Unit).run w =
        (.ok (), { w with printed := w.printed ++ linesText [message] }) := by
  obtain ⟨hint, wrong, drawn⟩ : ∃ hint : Hint, hint.isCorrect = false ∧
      (drawHint game.settings.hint game.dataset game.question x
        (hintStream game.seed attempt)).1 = .ok hint := by
    obtain plain | ⟨-, q, closer⟩ := drawHint_of_magnitude_ne game.settings.hint game.dataset
      guessed sought other (hintStream game.seed attempt)
    · exact ⟨_, rfl, plain⟩
    · exact ⟨_, rfl, closer⟩
  refine ⟨hint.message, head_message_of_not_correct wrong, ?_⟩
  rw [run_runGuess counted opened drawn, wrong]
  exact run_bind_of_ok (Prints.print hint.message w) _

/-- The run ends well, and the first it prints is that the guess is correct. -/
def AnswersCorrect (moment : Moment) (arguments : List String) (w : World) : Prop :=
  ∃ w' more, (runArguments moment arguments : StateM World Outcome) w = (.done, w') ∧
    w'.printed = w.printed ++ linesText ("Correct!" :: more)

theorem runArguments_eq_done_iff {arguments : List String} {command : Command}
    (known : read? arguments = some command) :
    (runArguments moment arguments : StateM World Outcome) w = (.done, w') ↔
      (run moment command : WorldStep Unit).run w = (.ok (), w') := by
  rcases ran : (run moment command : WorldStep Unit).run w with ⟨result, w₁⟩
  rw [runArguments_of_run moment known ran]
  cases result with
  | ok _ =>
    constructor
    · intro same
      cases same
      rfl
    · intro same
      cases same
      rfl
  | error e =>
    constructor
    · intro same
      cases same
    · intro same
      cases same

theorem answersCorrect_iff {arguments : List String} {x : Float} {attempt : UInt32}
    (known : read? arguments = some (.guess x attempt choice false)) (counted : attempt ≠ 0)
    (positive : isPositive x = true) :
    AnswersCorrect moment arguments w ↔
      ∃ game, (openGame moment choice : WorldStep Game).run w = (.ok game, w) ∧
        magnitude x = magnitude game.question.answer := by
  obtain ⟨k, guessed⟩ := exists_magnitude_iff.mpr positive
  constructor
  · rintro ⟨w', more, ran, printed⟩
    have guessing := (runArguments_eq_done_iff known).mp ran
    obtain ⟨game, opened⟩ := exists_openGame_of_runGuess counted guessing
    obtain ⟨-, -, drawn⟩ := exists_of_openGame opened
    obtain ⟨m, sought⟩ := exists_magnitude
      (game.dataset.fit game.question (mem_of_seededQuestion drawn))
    refine ⟨game, opened, ?_⟩
    by_contra other
    obtain ⟨message, head, wrong⟩ := run_runGuess_wrong counted opened guessed sought
      fun same => other (by rw [guessed, sought, same])
    cases guessing.symm.trans wrong
    -- The first letters of the texts that were printed tell the answers apart.
    have lines := congrArg (fun text => text.toList.head?)
      ((String.append_right_inj _).mp printed)
    simp [linesText, String.toList_append, List.head?_append, head] at lines
  · rintro ⟨game, opened, same⟩
    obtain ⟨text, -, ran⟩ := run_runGuess_correct counted opened guessed (same ▸ guessed)
    exact ⟨_, _, (runArguments_eq_done_iff known).mpr ran, rfl⟩

/-- The line that ends a shown game holds the arguments of a guess, which is judged against the
game that its seed names when no dataset and no configuration are asked for. That is the shown game
if they were not asked for there either. -/
theorem guess_line_of_daily {arguments : List String}
    (known : read? arguments = some (.daily choice false false))
    (ran : (runArguments moment arguments : StateM World Outcome) w = (.done, w')) :
    ∃ game : Game, (openGame moment choice : WorldStep Game).run w = (.ok game, w) ∧
      w'.printed = w.printed ++ linesText (shownLines game) ∧
      ∀ (moment' : Moment) (number : String) (x : Float),
        Number.read? number = some x → isPositive x = true →
        (AnswersCorrect moment' (guessArguments number game.seed) w' ↔
          ∃ other : Game, (openGame moment' { occasion := .seed game.seed } : WorldStep Game).run w' =
              (.ok other, w') ∧ magnitude x = magnitude other.question.answer) ∧
        (choice.dataset = none → choice.config = none →
          (AnswersCorrect moment' (guessArguments number game.seed) w' ↔
            magnitude x = magnitude game.question.answer)) := by
  have showing := (runArguments_eq_done_iff known).mp ran
  obtain ⟨game, w₁, opened, -⟩ := exists_of_run_bind showing
  obtain ⟨rfl, seed, -⟩ := exists_of_openGame opened
  cases showing.symm.trans (run_runDaily opened)
  refine ⟨game, opened, rfl, fun moment' number x read positive => ?_⟩
  have judged (v : World) : AnswersCorrect moment' (guessArguments number game.seed) v ↔ _ :=
    answersCorrect_iff (read?_guessArguments read positive game.seed) (by decide) positive
  refine ⟨judged _, fun dataset config => ?_⟩
  rw [judged]
  -- Without a dataset and a configuration, the seed is all that a choice says.
  have again : (openGame moment' { occasion := .seed game.seed } : WorldStep Game) =
      openGame moment choice := openGame_congr seed dataset.symm config.symm
  have reopened (printed : String) : (openGame moment choice : WorldStep Game).run
      { w₁ with printed := printed } = _ :=
    (Asks.openGame moment choice).run_congr opened rfl rfl
  rw [again]
  constructor
  · rintro ⟨other, opened', same⟩
    cases (reopened _).symm.trans opened'
    exact same
  · intro same
    exact ⟨game, reopened _, same⟩

end

/-! ### A dataset that the line does not name -/

def hourDocument : String :=
  "[\x7b\"question\":\"How many minutes are an hour?\",\"answer\":60," ++
    "\"values\":[\x7b\"value\":\"1 min\",\"name\":\"a minute\"\x7d]\x7d]"

def dayDocument : String :=
  "[\x7b\"question\":\"How many seconds are a day?\",\"answer\":86400," ++
    "\"values\":[\x7b\"value\":\"1 s\",\"name\":\"a second\"\x7d]\x7d]"

/-- A world in which the dataset to play is about days, next to one about hours. -/
def twoDatasetsWorld : World where
  tree := ((FileTree.bare ["home"]).put ["home", "days.json"] (.file (.text dayDocument))).put
    ["home", "hours.json"] (.file (.text hourDocument))
  environment := .ofList [("FERMIDLE_DATASET", "days.json")]

/-- The order of magnitude of the only answer in the dataset that a choice leads to. -/
def onlyMagnitude? (choice : GameChoice) (w : World) : Option ℤ :=
  match (Settings.load choice.config : WorldStep Settings).run w with
  | (.error _, _) => none
  | (.ok settings, w) =>
    match (loadOrBundled (choice.dataset <|> settings.dataset) : WorldStep Dataset).run w with
    | (.error _, _) => none
    | (.ok dataset, _) =>
      match dataset.questions.map fun q => magnitude q.answer with
      | [.ok m] => some m
      | _ => none

theorem onlyMagnitude?_twoDatasets :
    onlyMagnitude? { occasion := .seed 1, dataset := some "hours.json" } twoDatasetsWorld =
        some 1 ∧
      onlyMagnitude? { occasion := .seed 1 } twoDatasetsWorld = some 4 := by
  decide +kernel

theorem exists_of_onlyMagnitude? {m : ℤ} (h : onlyMagnitude? choice w = some m) :
    ∃ settings dataset,
      (Settings.load choice.config : WorldStep Settings).run w = (.ok settings, w) ∧
      (loadOrBundled (choice.dataset <|> settings.dataset) : WorldStep Dataset).run w =
        (.ok dataset, w) ∧
      dataset.questions ≠ [] ∧ ∀ q ∈ dataset.questions, magnitude q.answer = .ok m := by
  unfold onlyMagnitude? at h
  split at h
  · cases h
  · next settings w₁ configured =>
    obtain rfl := (Asks.loadSettings choice.config).world_eq configured
    split at h
    · cases h
    · next dataset w₂ accepted =>
      obtain rfl := (Asks.loadOrBundled (choice.dataset <|> settings.dataset)).world_eq accepted
      split at h
      · next k only =>
        cases h
        obtain ⟨q, single, sought⟩ := List.map_eq_singleton_iff.mp only
        refine ⟨settings, dataset, configured, accepted, ?_, ?_⟩
        · rw [single]
          exact List.cons_ne_nil q []
        · rw [single, List.forall_mem_singleton]
          exact sought
      · cases h

/-- A game from a dataset with one question asks this question. -/
theorem exists_openGame_of_onlyMagnitude? (moment : Moment) {m : ℤ}
    (h : onlyMagnitude? choice w = some m) :
    ∃ game, (openGame moment choice : WorldStep Game).run w = (.ok game, w) ∧
      magnitude game.question.answer = .ok m := by
  obtain ⟨settings, dataset, configured, accepted, filled, sought⟩ := exists_of_onlyMagnitude? h
  obtain ⟨q, member, opened⟩ := exists_openGame moment configured accepted filled
  exact ⟨_, opened, sought q member⟩

/-- A player who is shown the question about hours and guesses sixty, as the line says, is told that
this is wrong: the guess is judged against the seconds of a day. -/
theorem guess_line_leads_to_other_dataset :
    ∃ (_ : Elementary) (moment : Moment) (choice : GameChoice) (w w' : World) (game : Game),
      read? ["daily", "--seed", "1", "--dataset", "hours.json"] =
        some (.daily choice false false) ∧
      (runArguments moment ["daily", "--seed", "1", "--dataset", "hours.json"] :
        StateM World Outcome) w = (.done, w') ∧
      (openGame moment choice : WorldStep Game).run w = (.ok game, w) ∧
      w'.printed = w.printed ++ linesText (shownLines game) ∧
      Number.read? "60" = some 60.0 ∧ magnitude 60.0 = magnitude game.question.answer ∧
      ¬ AnswersCorrect moment (guessArguments "60" game.seed) w' := by
  let elementary : Elementary := ⟨Number.steppedLog 0, Float.exp2⟩
  have known : read? ["daily", "--seed", "1", "--dataset", "hours.json"] = some
      (.daily { occasion := .seed 1, dataset := some "hours.json" } false false) := by rfl
  have read : Number.read? "60" = some 60.0 := by rfl
  have guessed : magnitude 60.0 = .ok 1 := by rfl
  obtain ⟨game, opened, sought⟩ := exists_openGame_of_onlyMagnitude? ⟨0, "", 0⟩
    onlyMagnitude?_twoDatasets.1
  obtain ⟨other, opened', sought'⟩ := exists_openGame_of_onlyMagnitude? ⟨0, "", 0⟩
    onlyMagnitude?_twoDatasets.2
  have ran := (runArguments_eq_done_iff known).mpr (run_runDaily opened)
  obtain ⟨shown, same, printed, judged⟩ := guess_line_of_daily known ran
  cases opened.symm.trans same
  refine ⟨elementary, _, _, twoDatasetsWorld, _, game, known, ran, opened, printed, read,
    by rw [guessed, sought], ?_⟩
  obtain ⟨-, seed, -⟩ := exists_of_openGame opened
  rw [(judged _ "60" 60.0 read (exists_magnitude_iff.mp ⟨1, guessed⟩)).1]
  rintro ⟨found, reopened, right⟩
  have there (printed : String) : (openGame _ _ : WorldStep Game).run
      { twoDatasetsWorld with printed := printed } = _ :=
    (Asks.openGame _ _).run_congr opened' rfl rfl
  rw [seed] at reopened
  cases (there _).symm.trans reopened
  rw [guessed, sought'] at right
  cases right

end Command

end FermiQuiz
