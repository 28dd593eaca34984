/-!
# Starter files

What a new directory of the game begins with: a configuration with the standard settings, and some
facts to make questions of.
-/

namespace FermiQuiz.Starter

def configuration : String := String.intercalate "\n" [
  "# fermidle configuration",
  "",
  "# Question dataset. Leave unset to play the bundled questions.",
  "# dataset = \"questions.json\"",
  "",
  "values = \"data/values.json\"",
  "questions_output = \"questions.json\"",
  "",
  "[hint]",
  "closer_probability = 0.6",
  "base_tolerance = 0.5",
  "tolerance_scale = 0.25",
  "max_tolerance = 2.0",
  "pool_size = 3",
  "",
  "[generator]",
  "count = 20",
  "max_tries = 1000000",
  ""]

structure Sample where
  value : String
  units : String
  name : String
  measurement : String
  thing : String
  specifier : String := ""

def samples : List Sample := [
  ⟨"330.0", "m", "height of the Eiffel tower", "length", "Eiffel tower", "height"⟩,
  ⟨"0.0427", "m", "diameter of a golf ball", "length", "Golf ball", "diameter"⟩,
  ⟨"8849.0", "m", "height of Mount Everest", "length", "Mount Everest", "height"⟩,
  ⟨"5.972e24", "kg", "mass of the Earth", "mass", "Earth", ""⟩,
  ⟨"1.083e21", "m^3", "volume of the Earth", "volume", "Earth", ""⟩,
  ⟨"7.342e22", "kg", "mass of the Moon", "mass", "Moon", ""⟩,
  ⟨"2.19e19", "m^3", "volume of the Moon", "volume", "Moon", ""⟩]

def textLine (name value : String) : String := "    \"" ++ name ++ "\": \"" ++ value ++ "\""

def Sample.text (s : Sample) : String :=
  let quantity := "    \"value\": \x7b \"value\": " ++ s.value ++
    ", \"units\": \"" ++ s.units ++ "\" \x7d"
  let lines := [quantity, textLine "name" s.name, textLine "measurement" s.measurement,
    textLine "thing" s.thing] ++ if s.specifier = "" then [] else [textLine "specifier" s.specifier]
  "  \x7b\n" ++ String.intercalate ",\n" lines ++ "\n  \x7d"

def facts : String := "[\n" ++ String.intercalate ",\n" (samples.map Sample.text) ++ "\n]\n"

end FermiQuiz.Starter
