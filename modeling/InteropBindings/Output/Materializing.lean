import InteropBindings.Output.Aggregator
import InteropBindings.Output.DartFile
import InteropBindings.Output.Routing

/-!
# Materializing records

Records become binding files, and the folders that hold them get aggregators.
-/

namespace InteropBindings

/-- The files that have been written. -/
structure Materialized where
  /-- The binding files in order. -/
  files : List Path
  /-- The folders that hold binding files, in order. -/
  folders : List Path
  /-- The aggregators in the order in which they were written. -/
  aggregators : List Path
deriving DecidableEq, Repr

/-- Paths as a sorted set. -/
def pathSet (paths : List Path) : List Path := Sorted.ofList Path.order paths

namespace OutputRecords

/-- The paths of the records with text. -/
def writtenPaths (records : OutputRecords) : List Path :=
  records.entries.filterMap fun e => if e.2.isEmpty then none else some ⟨e.1⟩

/-- The binding files of some records. -/
def files (records : OutputRecords) : List Path := pathSet records.writtenPaths

/-- The folders of the binding files of some records. -/
def folders (records : OutputRecords) : List Path := pathSet (records.writtenPaths.filterMap Path.parent)

section

variable {m : Type → Type} [Monad m] [FileAccess m]

/-- Writes the file of a record, unless it is empty. -/
def writeRecord (entry : String × OutputRecord) : Job m Unit :=
  if entry.2.isEmpty then tellAll [.recordEmpty entry.1] else writeFile ⟨entry.1⟩ entry.2.file

/-- Writes the aggregator of a folder, with a warning if it takes the place of a binding file. -/
def aggregate (files : List Path) (folder : Path) : Job m Path := do
  let path ← writeFolderAggregator folder
  if files.any path.same then tellAll [.bindingReplaced path]
  return path

/-- Writes the files of records and, if wanted, the aggregators. -/
def materialize (records : OutputRecords) (root : Path) (aggregators : Bool) : Job m Materialized := do
  records.entries.forM writeRecord
  tellAll [.bindingsWritten records.files.length]
  if aggregators then
    let inFolders ← records.folders.mapM (aggregate records.files)
    let atRoot ← records.folders.mapM (writeRootExport root)
    tellAll [.aggregatorsWritten (inFolders ++ atRoot).length]
    return ⟨records.files, records.folders, inFolders ++ atRoot⟩
  else return ⟨records.files, records.folders, []⟩

end

end OutputRecords

end InteropBindings
