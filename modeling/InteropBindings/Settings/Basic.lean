import InteropBindings.Fault
import InteropBindings.Symbol.Platform

/-!
# Settings

What a run is told to do.
-/

namespace InteropBindings

/-- The settings of a run. -/
structure Settings where
  /-- The directory that declaration files are looked for in. -/
  inputDir : Option Path := none
  /-- The directory that bindings are written to. -/
  outputDir : Option Path := none
  /-- How the names of platform files start. -/
  exclude : List String := ["lib."]
  /-- Whether aggregator files are written. -/
  aggregators : Bool := true
  /-- Whether nothing is written at all. -/
  dryRun : Bool := false
deriving DecidableEq, Repr

namespace Settings

/-- The settings for two directories. -/
def between (input output : Path) : Settings := { inputDir := some input, outputDir := some output }

/-- The platform files of a run. -/
def platform (s : Settings) : PlatformFilter := ⟨s.exclude⟩

/-- Both directories of a run. -/
def directories (s : Settings) : Except Fault (Path × Path) :=
  match s.inputDir, s.outputDir with
  | none, _ => .error .inputNotSet
  | some _, none => .error .outputNotSet
  | some input, some output => .ok (input, output)

end Settings

end InteropBindings
