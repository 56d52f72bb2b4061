import InteropBindings.Files.Writing

/-!
# Aggregator files

An aggregator exports other files: the one of a folder exports the binding files in the folder, and the ones at the
output root export those of the folders.
-/

namespace InteropBindings

open Text

/-- The name of a folder, as it is shown. -/
def folderName (folder : Path) : Except Fault String :=
  match folder.fileName with
  | some name => .ok name.shown
  | none => .error (.invalidPath folder)

/-- The file name of the aggregator of a folder with a given name. -/
def aggregatorName (name : String) : String := name ++ ".dart"

/-- A statement that exports a file. -/
def exportStatement (file : String) : String := "export './" ++ file ++ "';"

/-- The binding files among the entries of a folder by their names as these are shown, in order and without some names.
-/
def dartFiles (excluded : List String) (entries : List (RawText × Kind)) : List String :=
  let names := entries.filterMap fun e =>
    let name := e.1.shown
    if e.2 = .file && endsWith ".dart" name && !excluded.contains name then some name else none
  names.mergeSort (· ≤ ·)

/-- The files that the aggregator of a folder exports: all but itself and one name that is never exported. -/
def exportedFiles (name : String) (entries : List (RawText × Kind)) : List String :=
  dartFiles ["barrel.dart", aggregatorName name] entries

/-- The text of the aggregator of a folder. -/
def folderAggregator (name : String) (files : List String) : String :=
  "// Library file for " ++ name ++ "\n" ++ listed "\n" (files.map exportStatement) ++ "\n"

section

variable {m : Type → Type} [Monad m] [FileAccess m]

/-- Writes the aggregator of a folder into it; the answer is its path. -/
def writeFolderAggregator (folder : Path) : Job m Path := do
  let name ← ofResult (folderName folder)
  let entries ← allowed .refused (FileAccess.list folder)
  let path := folder.join (aggregatorName name)
  writeFile path (folderAggregator name (exportedFiles name entries))
  return path

/-- Writes an aggregator at the output root that exports the aggregator of a folder below; the answer is its path. -/
def writeRootExport (root folder : Path) : Job m Path := do
  let name ← ofResult (folderName folder)
  let aggregator := folder.join (aggregatorName name)
  match Path.relativeTo? root aggregator with
  | none => throw (.invalidPath aggregator)
  | some relative =>
    let path := root.join (aggregatorName name)
    writeFile path (exportStatement relative.slashed ++ "\n")
    return path

end

end InteropBindings
