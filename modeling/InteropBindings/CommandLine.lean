import InteropBindings.Summary

/-!
# The command line

What the arguments of the program ask for, and what the program answers.
-/

namespace InteropBindings

open Text

/-- How the program is called. -/
def usage : String :=
  "Usage: dartify <inputDir> <outputDir> [--config <file>] [--dry-run] [--no-aggregators]"

/-- What the arguments ask for. -/
structure Command where
  inputDir : Option Path := none
  outputDir : Option Path := none
  /-- The file that further settings are in. -/
  settings : Option Path := none
  dryRun : Bool := false
  noAggregators : Bool := false
  help : Bool := false
deriving DecidableEq, Repr

/-- Why arguments are refused. -/
inductive ArgumentError
  | noSettingsPath
  | unexpected (argument : String)
  | unknownFlag (argument : String)
deriving DecidableEq, Repr

/-- The message for refused arguments. -/
def ArgumentError.message : ArgumentError → String
  | .noSettingsPath => "--config requires a path\n" ++ usage
  | .unexpected argument => "Unexpected argument: " ++ argument ++ "\n" ++ usage
  | .unknownFlag argument => "Unknown flag: " ++ argument ++ "\n" ++ usage

namespace Command

/-- Takes further arguments into account, from left to right. -/
def extend (c : Command) : List String → Except ArgumentError Command
  | [] => .ok c
  | argument :: rest =>
    if argument == "--config" || argument == "-c" then
      match rest with
      | path :: rest => extend { c with settings := some ⟨path⟩ } rest
      | [] => .error .noSettingsPath
    else if argument == "--dry-run" then extend { c with dryRun := true } rest
    else if argument == "--no-aggregators" then extend { c with noAggregators := true } rest
    else if argument == "--help" || argument == "-h" then extend { c with help := true } rest
    else if beginsWith "-" argument then .error (.unknownFlag argument)
    else if c.inputDir.isNone then extend { c with inputDir := some ⟨argument⟩ } rest
    else if c.outputDir.isNone then extend { c with outputDir := some ⟨argument⟩ } rest
    else .error (.unexpected argument)

/-- What arguments ask for. -/
def parse (arguments : List String) : Except ArgumentError Command := extend {} arguments

/-- Settings with what a command says put over them. -/
def override (c : Command) (s : Settings) : Settings :=
  { inputDir := c.inputDir <|> s.inputDir
    outputDir := c.outputDir <|> s.outputDir
    exclude := s.exclude
    aggregators := s.aggregators && !c.noAggregators
    dryRun := s.dryRun || c.dryRun }

end Command

/-! ## Answers -/

/-- What the program answers. -/
structure Reply where
  succeeds : Bool
  output : String := ""
  errors : String := ""
deriving DecidableEq, Repr

/-- The text for what went wrong, the outermost message first. -/
def errorText (messages : List String) : String := "error: " ++ listed ": " messages ++ "\n"

section

variable {m : Type → Type} [Monad m] [FileAccess m]

/-- The settings of a command: those in its file, or the usual ones, with what the command itself says put over them. -/
def Command.settle (c : Command) : Job m Settings := do
  match c.settings with
  | some path => return c.override (← Settings.load path)
  | none => return c.override {}

/-- Runs with some settings. -/
def answerSettings (parser : Parser) (s : Settings) (coloured : Bool) : m Reply := do
  match s.directories with
  | .error fault => return { succeeds := false, errors := usage ++ "\n" ++ errorText fault.chain }
  | .ok (input, output) =>
    let start := "Scanning input directory: " ++ input.text.shown ++ "\n"
    match ← (s.run parser).run with
    | .ok outcome =>
      let summary := outcome.summary
      return { succeeds := true, output := start ++ if coloured then summary.colouredText else summary.plainText }
    | .error fault =>
      let context := "Failed to generate bindings into " ++ output.text.shown
      return { succeeds := false, output := start, errors := errorText (context :: fault.chain) }

/-- Does what the arguments ask for. -/
def answer (parser : Parser) (arguments : List String) (coloured : Bool) : m Reply := do
  match Command.parse arguments with
  | .error e => return { succeeds := false, errors := errorText [e.message] }
  | .ok c =>
    if c.help then return { succeeds := true, output := usage ++ "\n" }
    match ← c.settle.run with
    | .ok s => answerSettings parser s coloured
    | .error fault =>
      let context := "Failed to load " ++ (c.settings.map fun path => path.text.shown).getD ""
      return { succeeds := false, errors := errorText (context :: fault.chain) }

end

end InteropBindings
