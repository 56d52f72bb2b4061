import InteropBindings.Declaration.Reading
import InteropBindings.Source.Items
import InteropBindings.Text.Lowercase

/-!
# The parser for TypeScript

The language of a file follows from its name, and its text is read in that language.
-/

namespace InteropBindings

open Text

/-- The language of a file. -/
inductive SourceKind
  /-- Declarations with types. -/
  | declarations
  /-- Code with types. -/
  | typed
  /-- Code without types. -/
  | untyped
deriving DecidableEq, Repr

/-- The language of a file with a given path. -/
def SourceKind.ofPath (path : Path) : SourceKind :=
  match (path.fileName.bind RawText.string?).map Path.cutName with
  | some (stem, some ending) =>
    let ending := lower ending
    let stem := lower stem
    if ["ts", "mts", "cts"].contains ending then
      if endsWith ".d" stem || endsWith ".d" (Path.cutName stem).1 then .declarations else .typed
    else if ending == "tsx" then .typed
    else .untyped
  | _ => .untyped

/-- The parser for the languages of all files. -/
def typeScript : Parser := fun path text =>
  let kind := SourceKind.ofPath path
  Source.readItems (kind != .untyped) (kind == .declarations) text

theorem typeScript_of_declarations {path : Path} (h : SourceKind.ofPath path = .declarations) (text : String) :
    typeScript path text = Source.readItems true true text := by
  rw [typeScript, h]
  rfl

end InteropBindings
