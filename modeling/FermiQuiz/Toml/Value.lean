/-!
# TOML values

What a TOML document says, without the way it is written.
-/

namespace FermiQuiz

inductive Toml where
  | text (s : String)
  | integer (n : Int)
  | float (x : Float)
  | bool (value : Bool)
  /-- A date, a time or both. Which one is not kept. -/
  | dateTime
  | array (items : List Toml)
  | table (fields : List (String × Toml))

end FermiQuiz
