import InteropBindings.Files.Discovery
import InteropBindings.Files.Loading
import InteropBindings.Output.Materializing

/-!
# Generating bindings

A run finds and loads declaration files, builds the symbol table over all of them, routes every declaration to a record,
and writes the records. A step starts only when the one before has ended for every file.
-/

namespace InteropBindings

/-- What is generated before anything is written. -/
structure Generated where
  symbols : SymbolTable
  records : OutputRecords
deriving DecidableEq, Repr

/-- What a run has done. -/
structure Outcome where
  outputDir : Path
  /-- The number of declaration files that were loaded. -/
  declarationFiles : Nat := 0
  symbolCount : Nat := 0
  /-- The number of binding files that were generated. -/
  recordCount : Nat := 0
  /-- The binding files that were written. -/
  files : List Path := []
  /-- The aggregators that were written. -/
  aggregators : List Path := []
  /-- Whether nothing was to be written. -/
  dryRun : Bool := false
deriving DecidableEq, Repr

/-- All files that were written. -/
def Outcome.allFiles (o : Outcome) : List Path := o.files ++ o.aggregators

namespace Settings

/-- The bindings of some files. -/
def generate (s : Settings) (files : List DeclarationFile) : Except Fault Generated := do
  let (input, output) ← s.directories
  if files.isEmpty then throw (.noDeclarationFiles input)
  let symbols := SymbolTable.build files s.platform
  return ⟨symbols, OutputRecords.route files symbols ⟨input, output⟩⟩

/-- What is told when bindings are generated. -/
def generateEvents (s : Settings) (files : List DeclarationFile) : List Event :=
  match s.directories, s.generate files with
  | .ok (input, output), .ok generated =>
    SymbolTable.buildEvents files s.platform ++ [.symbolsResolved generated.symbols.size]
      ++ OutputRecords.routeEvents files generated.symbols ⟨input, output⟩ ++ [.recordsGenerated generated.records.size]
  | _, _ => []

section

variable {m : Type → Type} [Monad m] [FileAccess m]

/-- Finds, loads, generates and writes. -/
def run (s : Settings) (parser : Parser) : Job m Outcome := do
  let (input, output) ← ofResult s.directories
  let paths ← discover input s.platform
  let files ← ExceptT.lift (loadAll parser paths)
  tellAll [.filesParsed files.length paths.length]
  tellAll (s.generateEvents files)
  let generated ← ofResult (s.generate files)
  let outcome : Outcome := {
    outputDir := output
    declarationFiles := files.length
    symbolCount := generated.symbols.size
    recordCount := generated.records.countWritten
    dryRun := s.dryRun }
  if s.dryRun then
    tellAll [.nothingWritten outcome.recordCount]
    return outcome
  let written ← generated.records.materialize output s.aggregators
  return { outcome with files := written.files, aggregators := written.aggregators }

end

end Settings

end InteropBindings
