import InteropBindings.Disk.Resolution
import InteropBindings.Files.Access

/-!
# Access to a file tree in memory

The operations on files as functions of a `Disk`, and jobs that run on one.
-/

namespace InteropBindings

namespace Disk

/-- The kind of an entry. -/
def kindOf : Entry → Kind
  | .directory => .directory
  | .file _ => .file
  | .link _ => .link

/-- The entry that a path leads to. At a free place there is none. -/
def find (d : Disk) (path : Path) : Except Refusal (Place × Entry) :=
  match d.resolve true path with
  | .ok (.entry place entry) => .ok (place, entry)
  | .ok (.free _) | .error .isDirectory => .error .missing
  | .error reason => .error reason

/-- What a path leads to. -/
def status (d : Disk) (path : Path) : Except Refusal Status :=
  (d.find path).map fun (place, entry) => ⟨kindOf entry, place⟩

/-- The names in a directory with what stands under each. -/
def list (d : Disk) (path : Path) : Except Refusal (List (RawText × Kind)) := do
  match ← d.find path with
  | (place, .directory) => return (d.children place).map fun e => (e.1, kindOf e.2)
  | _ => throw .notDirectory

/-- The text of a file. -/
def read (d : Disk) (path : Path) : Except Refusal String := do
  match ← d.find path with
  | (_, .file (.text s)) => return s
  | (_, .file (.bytes _)) => throw .noText
  | _ => throw .isDirectory

/-- Writes a file. A path with a slash at its end can only lead to a directory. -/
def write (d : Disk) (path : Path) (content : Content) : Except Refusal Disk := do
  if path.text.endsWith "/" then
    let _ ← d.resolve false (withoutEndSlashes path)
    throw Refusal.isDirectory
  match ← d.resolve true path with
  | .entry _ .directory => throw .isDirectory
  | .entry place _ => return d.put place (.file content)
  | .free place => return d.put place (.file content)

/-- Makes a directory at a free place. -/
def makeDirectory (d : Disk) (path : Path) : Except Refusal Disk := do
  match ← d.resolve false (withoutEndSlashes path) with
  | .entry _ _ => throw .alreadyThere
  | .free place => return d.put place .directory

/-- No chain of directories without repetition is longer: each link on the way leads to a directory not met before, and
between links the way only goes down. -/
def depthLimit (d : Disk) : Nat := (d.entries.size + 1) * (d.entries.size + 2)

end Disk

/-- A file tree and what has been told. -/
structure LoggedDisk where
  disk : Disk
  events : List Event := []
deriving DecidableEq, Repr

namespace LoggedDisk

/-- Asks a question about the file tree. -/
def ask {α : Type} (question : Disk → α) : StateM LoggedDisk α := return question (← get).disk

/-- Changes the file tree, unless the change is refused. -/
def change (operation : Disk → Except Refusal Disk) : StateM LoggedDisk (Except Refusal Unit) := do
  match operation (← get).disk with
  | .ok disk => modify fun s => { s with disk := disk }; return .ok ()
  | .error reason => return .error reason

instance : FileAccess (StateM LoggedDisk) where
  status path := ask (·.status path)
  list path := ask (·.list path)
  read path := ask (·.read path)
  write path text := change (·.write path (.text text))
  makeDirectory path := change (·.makeDirectory path)
  depthLimit := ask Disk.depthLimit
  tell event := modify fun s => { s with events := s.events ++ [event] }

end LoggedDisk

end InteropBindings
