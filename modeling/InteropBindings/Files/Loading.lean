import InteropBindings.Declaration.Reading
import InteropBindings.Files.Access
import InteropBindings.Settings.Reading

/-!
# Loading declarations and settings
-/

namespace InteropBindings

/-- The declarations of a text that belongs to a path; malformed text is a fault. -/
def DeclarationFile.parse (parser : Parser) (path : Path) (text : String) : Except Fault DeclarationFile :=
  (DeclarationFile.read parser path text).mapError fun e => .unparsable path e.expected

section

variable {m : Type → Type} [Monad m] [FileAccess m]

/-- The declarations of a file. -/
def DeclarationFile.load (parser : Parser) (path : Path) : Job m DeclarationFile := do
  let text ← allowed (.unreadable path) (FileAccess.read path)
  ofResult (DeclarationFile.parse parser path text)

/-- The settings in a file. -/
def Settings.load (path : Path) : Job m Settings := do
  let text ← allowed (.unreadableSettings path) (FileAccess.read path)
  tellAll [.settingsLoaded path]
  ofResult (Settings.ofToml text)

/-- The files that can be read and parsed. For every other one a warning is told. -/
def loadAll (parser : Parser) : List Path → m (List DeclarationFile)
  | [] => return []
  | path :: rest => do
    match ← (DeclarationFile.load parser path).run with
    | .ok file => return file :: (← loadAll parser rest)
    | .error fault =>
      FileAccess.tell (.fileSkipped path fault)
      loadAll parser rest

end

end InteropBindings
