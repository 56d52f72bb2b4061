import InteropBindings.Files.Access

/-!
# Writing files

A file is written after the directories around it have been made.
-/

namespace InteropBindings

section

variable {m : Type → Type} [Monad m] [FileAccess m]

/-- Makes the innermost of some nested directories whose surroundings are there; the answer is the ones inside of it,
from the inside out. -/
def makeOutermost : List Path → m (Except Refusal (List Path))
  | [] => return .ok []
  | path :: around => do
    if path.components.isEmpty || path.parent.isNone then return .ok []
    match ← FileAccess.makeDirectory path with
    | .ok () => return .ok []
    | .error .missing => return (← makeOutermost around).map (path :: ·)
    | .error .alreadyThere => return if ← isDirectory path then .ok [] else .error .alreadyThere
    | .error reason => return .error reason

/-- Makes directories one after the other, unless they are there. -/
def makeEach : List Path → m (Except Refusal Unit)
  | [] => return .ok ()
  | path :: inside => do
    match ← FileAccess.makeDirectory path with
    | .ok () => makeEach inside
    | .error .alreadyThere => if ← isDirectory path then makeEach inside else return .error .alreadyThere
    | .error reason => return .error reason

/-- Makes a directory and those around it, unless they are there. -/
def ensureDirectory (path : Path) : m (Except Refusal Unit) := do
  match ← makeOutermost path.ancestors with
  | .ok inside => makeEach inside.reverse
  | .error reason => return .error reason

/-- Writes a file after making the directories around it. -/
def writeFile (path : Path) (text : String) : Job m Unit := do
  if let some around := path.parent then allowed .refused (ensureDirectory around)
  allowed .refused (FileAccess.write path text)

end

end InteropBindings
