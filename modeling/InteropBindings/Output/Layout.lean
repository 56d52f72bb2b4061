import InteropBindings.Declaration.Located
import InteropBindings.Text.Lowercase

/-!
# Layout of the output

Where the binding of a symbol goes. Inside namespaces the place follows from their names, otherwise from the place of
the source file below the input directory.
-/

namespace InteropBindings

open Text

/-- The directories of a run. -/
structure OutputLayout where
  inputRoot : Path
  outputRoot : Path
deriving DecidableEq, Repr

namespace OutputLayout

/-- The path of a source file below the input directory. Of a file elsewhere only the names in its path are kept. -/
def relativeSource (layout : OutputLayout) (source : Path) : Path :=
  (Path.relativeTo? layout.inputRoot source).getD source.plain

/-- The folder of the symbols that a source file declares outside of namespaces. -/
def sourceFolder (layout : OutputLayout) (source : Path) : String :=
  let relative := (layout.relativeSource source).slashed
  (dropEnding? ".d.ts" relative).getD relative

/-- The folder that the binding of a symbol goes to. -/
def folder (layout : OutputLayout) (around : NamespacePath) (source : Path) : Path :=
  if around.isEmpty then layout.outputRoot.join (layout.sourceFolder source)
  else around.foldl (fun path segment => path.join (lower segment)) layout.outputRoot

/-- The file name of a binding. -/
def fileName (name : String) : String := lower name ++ ".dart"

/-- The file that the binding of a symbol goes to. -/
def outputPath (layout : OutputLayout) (name : String) (around : NamespacePath) (source : Path) : String :=
  ((layout.folder around source).join (fileName name)).slashed

/-- The file that the binding of a declaration goes to. -/
def pathOf (layout : OutputLayout) (l : Located) : String := layout.outputPath l.declaration.name l.around l.file

end OutputLayout

end InteropBindings
