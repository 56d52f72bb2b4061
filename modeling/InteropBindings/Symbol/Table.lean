import InteropBindings.Event
import InteropBindings.Ledger
import InteropBindings.Symbol.Platform

/-!
# Symbol tables

The table says for every class, interface and type alias which file declares it. It is built over all files before
anything is generated, and the last declaration of a name counts.
-/

namespace InteropBindings

/-- Whether a declaration makes a symbol that types can refer to. -/
def Declaration.isType : Declaration → Bool
  | .classDecl _ | .interface _ | .alias _ => true
  | .function _ => false

/-- Which file declares each symbol, in the order of first declaration. -/
structure SymbolTable where
  files : Ledger QualifiedName Path := .empty
  platform : PlatformFilter := {}
deriving DecidableEq, Repr

namespace SymbolTable

/-- The file that declares a symbol. -/
def lookup (t : SymbolTable) (name : QualifiedName) : Option Path := t.files.get? name

/-- Whether a symbol is declared. -/
def contains (t : SymbolTable) (name : QualifiedName) : Bool := t.files.contains name

/-- The number of symbols. -/
def size (t : SymbolTable) : Nat := t.files.size

/-- Whether a path leads to a platform file. -/
def isPlatform (t : SymbolTable) (path : Path) : Bool := t.platform.isPlatform path

/-- Enters a symbol, replacing an earlier declaration. -/
def insert (t : SymbolTable) (name : QualifiedName) (file : Path) : SymbolTable :=
  { t with files := t.files.put name file }

/-- What is told when a symbol is entered: that it replaces one from another file. -/
def insertEvents (t : SymbolTable) (name : QualifiedName) (file : Path) : List Event :=
  match t.lookup name with
  | some previous => if previous.same file then [] else [.redeclared name file previous]
  | none => []

/-! ## Building -/

/-- The symbols of a file in the order in which they are declared. -/
def symbolsOf (file : DeclarationFile) : List Located := file.located.filter fun l => l.declaration.isType

/-- Enters a declared symbol. -/
def enter (t : SymbolTable) (l : Located) : SymbolTable := t.insert l.qualifiedName l.file

/-- Enters the symbols of a file, unless it is a platform file. -/
def scan (t : SymbolTable) (file : DeclarationFile) : SymbolTable :=
  if t.isPlatform file.path then t else (symbolsOf file).foldl enter t

/-- The table of some files. -/
def build (files : List DeclarationFile) (platform : PlatformFilter) : SymbolTable :=
  files.foldl scan { platform := platform }

/-- What is told when a file is scanned. -/
def scanEvents (t : SymbolTable) (file : DeclarationFile) : List Event :=
  if t.isPlatform file.path then [.platformFileSkipped file.path]
  else Event.along enter (fun t l => t.insertEvents l.qualifiedName l.file) t (symbolsOf file)

/-- What is told when a table is built. -/
def buildEvents (files : List DeclarationFile) (platform : PlatformFilter) : List Event :=
  Event.along scan scanEvents { platform := platform } files ++ [.tableBuilt (build files platform).size]

end SymbolTable

end InteropBindings
