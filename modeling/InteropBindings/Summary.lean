import InteropBindings.Generation

/-!
# Summary of a run

A few lines of text about a run, in plain text or with colours for a terminal.
-/

namespace InteropBindings

open Number

/-- How a piece of text is shown. -/
inductive Style
  | plain | bold | yellow | boldGreen
deriving DecidableEq, Repr

/-- Pieces of text with their styles. -/
abbrev Styled := List (Style × String)

namespace Styled

/-- A terminal command. -/
def command (code : String) : String := String.ofList [Char.ofNat 27] ++ "[" ++ code ++ "m"

/-- What is written before a text to show it in a style. Every change of style starts from none. -/
def opening : Style → String
  | .plain => ""
  | .bold => command "0" ++ command "1"
  | .yellow => command "0" ++ command "33"
  | .boldGreen => command "0" ++ command "1" ++ command "32"

/-- The text alone. -/
def plainText (s : Styled) : String := String.join (s.map Prod.snd)

/-- The text with the commands for its styles. -/
def colouredText (s : Styled) : String :=
  String.join (s.map fun e => if e.1 = .plain then e.2 else opening e.1 ++ e.2 ++ command "0")

end Styled

namespace Outcome

/-- The counts of a run with their labels. -/
def counts (o : Outcome) : List (Nat × String) :=
  [(o.declarationFiles, "declaration files"), (o.symbolCount, "symbols"), (o.recordCount, "bindings")]
    ++ if o.dryRun then [] else [(o.aggregators.length, "aggregator files")]

/-- The summary of a run: a line for each count, and one about the output directory. -/
def summary (o : Outcome) : Styled :=
  (o.counts.flatMap fun (n, label) => [(.bold, numeral n), (.plain, " " ++ label ++ "\n")])
    ++ if o.dryRun then [(.yellow, "Dry run:"), (.plain, " nothing written to " ++ o.outputDir.text.shown ++ "\n")]
      else [(.boldGreen, "Generated"), (.plain, " Dart interop files in " ++ o.outputDir.text.shown ++ "\n")]

end Outcome

end InteropBindings
