import InteropBindings.Fault
import InteropBindings.Number.Numeral
import InteropBindings.Symbol.Name

/-!
# Events

What a run tells about its course, each event with a level and a text.
-/

namespace InteropBindings

open Number

/-- How much an event matters. -/
inductive Level
  | trace | debug | info | warn
deriving DecidableEq, Repr

/-- What happens in the course of a run. -/
inductive Event
  | platformFileSkipped (file : Path)
  | tableBuilt (count : Nat)
  | redeclared (name : QualifiedName) (file previous : Path)
  | unresolved (name : QualifiedName)
  | typedefReplaced (name : QualifiedName)
  | platformFileNotRouted (file : Path)
  | routed (name : QualifiedName) (path : String)
  | classMerged (name : QualifiedName)
  | memberRepeated (name : QualifiedName) (signature : String)
  | functionRepeated (signature : String)
  | fileSkipped (file : Path) (fault : Fault)
  | filesParsed (parsed found : Nat)
  | nothingWritten (count : Nat)
  | symbolsResolved (count : Nat)
  | recordsGenerated (count : Nat)
  | recordEmpty (path : String)
  | bindingsWritten (count : Nat)
  | bindingReplaced (path : Path)
  | aggregatorsWritten (count : Nat)
  | platformFileExcluded (file : Path)
  | filesFound (count : Nat) (dir : Path)
  | settingsLoaded (file : Path)
deriving DecidableEq, Repr

namespace Event

/-- How much an event matters. -/
def level : Event → Level
  | .platformFileSkipped _ | .redeclared .. | .unresolved _ | .platformFileNotRouted _ => .trace
  | .tableBuilt _ | .typedefReplaced _ | .routed .. | .classMerged _ | .memberRepeated .. | .functionRepeated _
  | .recordEmpty _ | .platformFileExcluded _ | .settingsLoaded _ => .debug
  | .fileSkipped .. | .bindingReplaced _ => .warn
  | .filesParsed .. | .nothingWritten _ | .symbolsResolved _ | .recordsGenerated _ | .bindingsWritten _
  | .aggregatorsWritten _ | .filesFound .. => .info

/-- The text of an event. -/
def text : Event → String
  | .platformFileSkipped file => "Skipping platform file " ++ file.text.shown
  | .tableBuilt count => "Symbol table holds " ++ numeral count ++ " symbols"
  | .redeclared name file previous =>
    name.text ++ " redeclared in " ++ file.text.shown ++ ", shadowing " ++ previous.text.shown
  | .unresolved name => "Unresolved type " ++ name.text ++ ", using JSObject"
  | .typedefReplaced name => "Replacing typedef " ++ name.text
  | .platformFileNotRouted file => "Not routing platform file " ++ file.text.shown
  | .routed name path => "Routing " ++ name.text ++ " to " ++ path
  | .classMerged name => "Merging further members into " ++ name.text
  | .memberRepeated name signature => "Skipping duplicate " ++ name.text ++ "." ++ signature
  | .functionRepeated signature => "Skipping duplicate function " ++ signature
  | .fileSkipped file fault => "Skipping " ++ file.text.shown ++ ": " ++ fault.message
  | .filesParsed parsed found => "Parsed " ++ numeral parsed ++ " of " ++ numeral found ++ " declaration files"
  | .nothingWritten count => "Dry run, not writing " ++ numeral count ++ " binding files"
  | .symbolsResolved count => "Resolved " ++ numeral count ++ " symbols"
  | .recordsGenerated count => "Generated " ++ numeral count ++ " output records"
  | .recordEmpty path => "Nothing generated for " ++ path ++ ", skipping"
  | .bindingsWritten count => "Wrote " ++ numeral count ++ " binding files"
  | .bindingReplaced path => "Aggregator " ++ path.text.shown ++ " replaced a generated binding of the same name"
  | .aggregatorsWritten count => "Wrote " ++ numeral count ++ " aggregator files"
  | .platformFileExcluded file => "Excluding platform file " ++ file.text.shown
  | .filesFound count dir => "Found " ++ numeral count ++ " declaration files in " ++ dir.text.shown
  | .settingsLoaded file => "Loaded configuration from " ++ file.text.shown

/-- The events of taking steps one after the other, each told from the state before it. -/
def along {σ α : Type} (step : σ → α → σ) (told : σ → α → List Event) : σ → List α → List Event
  | _, [] => []
  | s, a :: rest => told s a ++ along step told (step s a) rest

end Event

end InteropBindings
