import InteropBindings.Output.Layout
import InteropBindings.Output.Record

/-!
# Routing

Every class, function and type alias goes to the record of the file that its binding belongs in.
-/

namespace InteropBindings

/-- Whether a declaration has a binding. -/
def Declaration.isBound : Declaration → Bool
  | .classDecl _ | .function _ | .alias _ => true
  | .interface _ => false

/-- Records by the paths of their files, in the order in which they came up. -/
abbrev OutputRecords := Ledger String OutputRecord

namespace OutputRecords

/-- The scope of a declaration. -/
def scopeOf (table : SymbolTable) (l : Located) : Scope := ⟨table, l.file, l.around⟩

/-- The record at a path, a new one if there is none. -/
def recordAt (records : OutputRecords) (path : String) : OutputRecord := (records.get? path).getD {}

/-- Sends a declaration to its record. -/
def send (table : SymbolTable) (layout : OutputLayout) (records : OutputRecords) (l : Located) : OutputRecords :=
  let path := layout.pathOf l
  records.put path ((records.recordAt path).add (scopeOf table l) l.declaration)

/-- The declarations of a file that have a binding. -/
def boundOf (file : DeclarationFile) : List Located := file.located.filter fun l => l.declaration.isBound

/-- Routes the declarations of a file, unless it is a platform file. -/
def routeFile (table : SymbolTable) (layout : OutputLayout) (records : OutputRecords) (file : DeclarationFile) :
    OutputRecords :=
  if table.isPlatform file.path then records else (boundOf file).foldl (send table layout) records

/-- The records of some files. -/
def route (files : List DeclarationFile) (table : SymbolTable) (layout : OutputLayout) : OutputRecords :=
  files.foldl (routeFile table layout) .empty

/-- The number of records with text. -/
def countWritten (records : OutputRecords) : Nat := (records.values.filter fun r => !r.isEmpty).length

/-! ## Events -/

/-- What is told when a declaration is sent to its record. -/
def sendEvents (table : SymbolTable) (layout : OutputLayout) (records : OutputRecords) (l : Located) : List Event :=
  let path := layout.pathOf l
  .routed l.qualifiedName path :: (records.recordAt path).addEvents (scopeOf table l) l.declaration

/-- What is told when a file is routed. -/
def routeFileEvents (table : SymbolTable) (layout : OutputLayout) (records : OutputRecords) (file : DeclarationFile) :
    List Event :=
  if table.isPlatform file.path then [.platformFileNotRouted file.path]
  else Event.along (send table layout) (sendEvents table layout) records (boundOf file)

/-- What is told when files are routed. -/
def routeEvents (files : List DeclarationFile) (table : SymbolTable) (layout : OutputLayout) : List Event :=
  Event.along (routeFile table layout) (routeFileEvents table layout) .empty files

end OutputRecords

end InteropBindings
