import FermiQuiz.Number.Text
import FermiQuiz.Number.Numeral
import FermiQuiz.Number.Rounding
import FermiQuiz.Number.Power
import FermiQuiz.Text.Blank
import FermiQuiz.Text.ScriptDigit
import FermiQuiz.Text.Lowercase
import FermiQuiz.Text.Quoted
import FermiQuiz.Difficulty
import FermiQuiz.Seed
import FermiQuiz.Chance.Draw
import FermiQuiz.Pick
import FermiQuiz.Hint
import FermiQuiz.Density
import FermiQuiz.Generation
import FermiQuiz.Json.Record
import FermiQuiz.Store.World
import FermiQuiz.Store.Files
import FermiQuiz.Sheet.Import
import FermiQuiz.Settings
import FermiQuiz.Main
import FermiQuiz.Proofs.FactSet
import FermiQuiz.Proofs.HintPool
import FermiQuiz.Proofs.Gap
import FermiQuiz.Proofs.Json.Literal
import FermiQuiz.Proofs.Number.Range
import FermiQuiz.Proofs.Json.Text
import FermiQuiz.Proofs.Pursuit
import FermiQuiz.Proofs.WrittenAnswer
import FermiQuiz.Proofs.Generation.Added
import FermiQuiz.Proofs.Generation.Resumption
import FermiQuiz.Proofs.Json.Tokens
import FermiQuiz.Proofs.Json.Digits
import FermiQuiz.Proofs.Json.Number
import FermiQuiz.Proofs.Json.Record
import FermiQuiz.Proofs.Store.Records
import FermiQuiz.Proofs.Store.Files
import FermiQuiz.Proofs.Generation.Saved
import FermiQuiz.Proofs.Sheet.Saved
import FermiQuiz.Proofs.Direction
import FermiQuiz.Proofs.Prompt
import FermiQuiz.Proofs.Store.Reloaded
import FermiQuiz.Proofs.Json.Precision
import FermiQuiz.Proofs.Sheet.Curation
import FermiQuiz.Proofs.Store.SavedFacts
import FermiQuiz.Proofs.Playable
import FermiQuiz.Proofs.Draws
import FermiQuiz.Proofs.HintDraws
import FermiQuiz.Proofs.Store.Reading
import FermiQuiz.Proofs.Store.Writing
import FermiQuiz.Proofs.Command.Effects
import FermiQuiz.Proofs.Command.Arguments
import FermiQuiz.Proofs.Command.Game
import FermiQuiz.Proofs.Store.SavedQuestions
import FermiQuiz.Proofs.Sheet.Written
import FermiQuiz.Proofs.Command.Reveal
import FermiQuiz.Proofs.Generation.Identity
import FermiQuiz.Proofs.Sheet.Places
import FermiQuiz.Proofs.Derivation
import FermiQuiz.Proofs.Sheet.Carried
import FermiQuiz.Proofs.WrittenMagnitude
import FermiQuiz.Proofs.Number.Fixed
import FermiQuiz.Proofs.Scientific
import FermiQuiz.Proofs.Command.Listing
import FermiQuiz.Proofs.Difficulty
import FermiQuiz.Proofs.Warnings
import FermiQuiz.Proofs.Seeds
import FermiQuiz.Proofs.Expansion
import FermiQuiz.Proofs.EvenDraws
import FermiQuiz.Proofs.ShownNumber
