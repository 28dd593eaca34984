import Mathlib
import FermiQuiz.Proofs.Command.Choice
import FermiQuiz.Proofs.Command.Game
import FermiQuiz.Proofs.Number.ReadBack
import FermiQuiz.Proofs.Store.Records

/-!
# Revealed answers

The answer of a game is revealed as a number and, in a document, as a literal. Both are read as the
very double that is the answer, so that either is a right guess at the same game.
-/

namespace FermiQuiz

open Json (record? WellNamed present)
open Number (Elementary isPositive naturalText plainText)
open WorldStep

namespace Command

variable {moment moment' : Moment} {choice : GameChoice} {game : Game} {w v : World}

/-! ### Revealing -/

/-- The lines that show a game and its answer. -/
def revealedLines (game : Game) (answer : String) : List String :=
  ("Fermidle #" ++ naturalText game.seed.toNat) :: "" :: game.question.prompt ::
    (game.question.figures.map figureLine ++ ["", "Answer: " ++ answer])

theorem run_runDaily_reveal {answer : String}
    (opened : (openGame moment choice : WorldStep Game).run w = (.ok game, w))
    (text : answerText game.question.answer = .ok answer) :
    (runDaily moment choice true false : WorldStep Unit).run w =
      (.ok (), { w with printed := w.printed ++ linesText (revealedLines game answer) }) := by
  have ending : Prints ["", "Answer: " ++ answer] (do
      let answer ← .ofGame (answerText game.question.answer)
      print ""
      print ("Answer: " ++ answer)) := by
    intro u
    rw [run_bind_of_ok (run_ofGame_eq_ok.mpr ⟨text, rfl⟩)]
    exact Prints.bind (.print "") (fun _ => .print _) u
  unfold runDaily
  rw [run_bind_of_ok opened, revealedLines]
  exact Prints.bind (.print _) (fun _ => .bind (.print _) fun _ => .bind (.print _) fun _ =>
    .bind (.forM figureLine _) fun _ => ending) w

/-- The document that shows a game. -/
def gameDocument (game : Game) : String :=
  Json.prettyText (.object (field "seed" (Json.ofInt game.seed.toNat) ++
    field "question" game.question.toJson))

theorem run_runDaily_json (reveal : Bool)
    (opened : (openGame moment choice : WorldStep Game).run w = (.ok game, w)) :
    (runDaily moment choice reveal true : WorldStep Unit).run w =
      (.ok (), { w with printed := w.printed ++ linesText [gameDocument game] }) := by
  unfold runDaily
  rw [run_bind_of_ok opened]
  exact Prints.print _ w

def gameParts (game : Game) : List (String × Option Json) :=
  [("seed", some (Json.ofInt game.seed.toNat)), ("question", some game.question.toJson)]

theorem gameDocument_eq (game : Game) :
    gameDocument game = Json.prettyText (.object (present (gameParts game))) := rfl

theorem wellNamed_gameParts (game : Game) : WellNamed ((gameParts game).map Prod.fst) := by
  change WellNamed ["seed", "question"]
  exact ⟨by decide +kernel, by decide⟩

theorem wellSpelled_gameParts (game : Game) :
    (Json.object (present (gameParts game))).WellSpelled := by
  refine Json.wellSpelled_object (wellNamed_gameParts game) ?_
  simp only [gameParts, List.forall_mem_cons, Option.mem_some_iff, forall_eq']
  exact ⟨wellSpelled_ofInt _, game.question.wellSpelled, by simp⟩

/-- How a document that shows a game spells the answer. -/
def answerLiteral? (document : String) : Option String := do
  match ← record? ["question"] (← Json.read? document) with
  | [some question] =>
    match ← record? ["answer"] question with
    | [some (.number cs)] => some (String.ofList cs)
    | _ => none
  | _ => none

/-- The literal of an answer is read as the answer was. -/
theorem exists_answerLiteral? (finite : game.question.answer.isFinite = true) :
    ∃ number, answerLiteral? (gameDocument game) = some number ∧
      Number.read? number = some game.question.answer := by
  obtain ⟨cs, literal, read⟩ := Number.exists_literal finite
  have question : record? ["question"] (.object (present (gameParts game))) =
      some [some game.question.toJson] :=
    @Json.record?_of_subset _ [("question", some game.question.toJson)] (wellNamed_gameParts game)
      (by simp [gameParts])
  have answer : record? ["answer"] game.question.toJson = some [some (.number cs)] := by
    rw [Question.toJson_eq, ← literal]
    exact @Json.record?_of_subset _ [("answer", some (Json.ofFloat game.question.answer))]
      game.question.wellNamed (by simp [Question.parts])
  refine ⟨String.ofList cs, ?_, by rw [Number.read?, String.toList_ofList, read]⟩
  rw [answerLiteral?, gameDocument_eq, (wellSpelled_gameParts game).read?_prettyText]
  simp [question, answer]

/-! ### Guessing what was revealed -/

section

variable [Elementary] {flags : List String}

/-- A guess at the game that arguments choose is right at any attempt, where files and variables
are the same and the day chooses the same seed. It is answered with the text of the answer. -/
def IsRightGuess (moment : Moment) (choice : GameChoice) (flags : List String) (w : World)
    (answer guess : String) : Prop :=
  ∀ (moment' : Moment) (v : World) (attempt : UInt32),
    choice.occasion.seedAt moment' = choice.occasion.seedAt moment → v.tree = w.tree →
    v.environment = w.environment → attempt ≠ 0 →
    (runArguments moment' ("guess" :: guess :: "--attempt" :: naturalText attempt.toNat :: flags) :
      StateM World Outcome) v = (.done, { v with
        printed := v.printed ++ linesText
          [Hint.correct.message, "The answer was " ++ answer ++ "."] })

theorem isRightGuess_of_read? {guess answer : String}
    (known : read? ("daily" :: flags) = some (.daily choice false false))
    (opened : (openGame moment choice : WorldStep Game).run w = (.ok game, w))
    (positive : isPositive game.question.answer = true)
    (read : Number.read? guess = some game.question.answer)
    (text : answerText game.question.answer = .ok answer) :
    IsRightGuess moment choice flags w answer guess := by
  intro moment' v attempt seed tree environment counted
  rw [runArguments_eq_done_iff (read?_guess known read positive attempt)]
  have same : (openGame moment' choice : WorldStep Game) = openGame moment choice :=
    openGame_congr seed rfl rfl
  have reopened : (openGame moment' choice : WorldStep Game).run v = (.ok game, v) := by
    rw [same]
    exact (Asks.openGame moment choice).run_congr opened tree environment
  obtain ⟨m, sought⟩ := exists_magnitude_iff.mpr positive
  obtain ⟨text', again, ran⟩ := run_runGuess_correct counted reopened sought sought
  cases text.symm.trans again
  exact ran

/-- The answer that is revealed is a right guess, as the number that players are shown and as the
literal in a document, and it is answered with the text that revealed it. -/
theorem revealed_answer_is_right {settings : Settings} {dataset : Dataset}
    (known : read? ("daily" :: flags) = some (.daily choice false false))
    (configured : (Settings.load choice.config : WorldStep Settings).run w = (.ok settings, w))
    (accepted : (loadOrBundled (choice.dataset <|> settings.dataset) : WorldStep Dataset).run w =
      (.ok dataset, w))
    (filled : dataset.questions ≠ []) :
    ∃ (game : Game) (s : Scientific) (document literal : String),
      let number := plainText game.question.answer
      let answer := number ++ " (" ++ s.text ++ ")"
      (openGame moment choice : WorldStep Game).run w = (.ok game, w) ∧
      scientific game.question.answer 2 = .ok s ∧
      (runArguments moment ("daily" :: "--reveal" :: flags) : StateM World Outcome) w =
        (.done, { w with printed := w.printed ++ linesText (revealedLines game answer) }) ∧
      (runArguments moment ("daily" :: "--json" :: flags) : StateM World Outcome) w =
        (.done, { w with printed := w.printed ++ linesText [document] }) ∧
      answerLiteral? document = some literal ∧
      IsRightGuess moment choice flags w answer number ∧
      IsRightGuess moment choice flags w answer literal := by
  obtain ⟨q, member, opened⟩ := exists_openGame moment configured accepted filled
  have fit := dataset.fit q member
  have positive := Question.isPositive_answer fit
  have finite := Question.isFinite_answer fit
  obtain ⟨s, formed⟩ : ∃ s, scientific q.answer 2 = .ok s := by
    obtain ⟨m, sought⟩ := exists_magnitude fit
    exact ⟨_, scientific_of_magnitude sought 2⟩
  have text := answerText_of_scientific formed
  obtain ⟨literal, spelled, read⟩ :=
    @exists_answerLiteral? ⟨settings, dataset, choice.occasion.seedAt moment, q⟩ finite
  have reveal : Arguments.kindOf "--reveal" = .named "reveal" none := rfl
  have json : Arguments.kindOf "--json" = .named "json" none := rfl
  have revealing : read? ("daily" :: "--reveal" :: flags) = some (.daily choice true false) :=
    read?_daily_flag known reveal (by decide)
  have showing : read? ("daily" :: "--json" :: flags) = some (.daily choice false true) :=
    read?_daily_flag known json (by decide)
  refine ⟨_, s, _, literal, opened, formed, ?_, ?_, spelled, ?_, ?_⟩
  · exact (runArguments_eq_done_iff revealing).mpr (run_runDaily_reveal opened text)
  · exact (runArguments_eq_done_iff showing).mpr (run_runDaily_json false opened)
  · exact isRightGuess_of_read? known opened positive (Number.read?_plainText finite) text
  · exact isRightGuess_of_read? known opened positive read text

end

/-- What is revealed about hours is right although days are what would be played otherwise. -/
theorem revealed_answer_of_two_datasets :
    ∃ (_ : Elementary) (settings : Settings) (dataset : Dataset) (game : Game) (s : Scientific),
      let moment : Moment := ⟨0, "", 0⟩
      let choice : GameChoice := { occasion := .seed 1, dataset := some "hours.json" }
      let flags := ["--seed", "1", "--dataset", "hours.json"]
      let answer := plainText game.question.answer ++ " (" ++ s.text ++ ")"
      read? ("daily" :: flags) = some (.daily choice false false) ∧
      (Settings.load choice.config : WorldStep Settings).run twoDatasetsWorld =
        (.ok settings, twoDatasetsWorld) ∧
      (loadOrBundled (choice.dataset <|> settings.dataset) : WorldStep Dataset).run
        twoDatasetsWorld = (.ok dataset, twoDatasetsWorld) ∧
      dataset.questions ≠ [] ∧
      scientific game.question.answer 2 = .ok s ∧
      (runArguments moment ("daily" :: "--reveal" :: flags) : StateM World Outcome)
        twoDatasetsWorld = (.done, { twoDatasetsWorld with
          printed := twoDatasetsWorld.printed ++ linesText (revealedLines game answer) }) ∧
      IsRightGuess moment choice flags twoDatasetsWorld answer
        (plainText game.question.answer) := by
  let elementary : Elementary := ⟨Number.steppedLog 0, Float.exp2⟩
  have known : read? ("daily" :: ["--seed", "1", "--dataset", "hours.json"]) = some
      (.daily { occasion := .seed 1, dataset := some "hours.json" } false false) := by rfl
  obtain ⟨settings, dataset, configured, accepted, filled, -⟩ :=
    exists_of_onlyMagnitude? onlyMagnitude?_twoDatasets.1
  obtain ⟨game, s, document, literal, -, formed, revealed, -, -, right, -⟩ :=
    @revealed_answer_is_right ⟨0, "", 0⟩ _ _ elementary _ _ _ known configured accepted filled
  exact ⟨elementary, settings, dataset, game, s, known, configured, accepted, filled, formed,
    revealed, right⟩

end Command

end FermiQuiz
