import InteropBindings.Output.Record

/-!
# Text of a binding file
-/

namespace InteropBindings

/-- The text of a binding file: its imports in order, a blank line after them, and its code. -/
def dartFile (code : String) (imports : List String) : String :=
  String.join (imports.map fun i => "import '" ++ i ++ "';\n") ++ (if imports.isEmpty then "" else "\n") ++ code

/-- The text of the file of a record. -/
def OutputRecord.file (r : OutputRecord) : String := dartFile r.code r.imports

end InteropBindings
