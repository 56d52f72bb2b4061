import InteropBindings.Event

/-!
# Access to files

The operations on a file tree that a run needs, over any monad that has them. A run on a tree in memory and a run on the
file system of a machine are the same program.
-/

namespace InteropBindings

/-- What stands under a name in a directory. -/
inductive Kind
  | directory | file | link | other
deriving DecidableEq, Repr

/-- What a path leads to when links are followed, and the place where that is. -/
structure Status where
  kind : Kind
  place : List RawText
deriving DecidableEq, Repr

/-- The operations on a file tree, and a log. -/
class FileAccess (m : Type → Type) where
  /-- What a path leads to. -/
  status : Path → m (Except Refusal Status)
  /-- The names in a directory with what stands under each. -/
  list : Path → m (Except Refusal (List (RawText × Kind)))
  /-- The text of a file. -/
  read : Path → m (Except Refusal String)
  /-- Writes the text of a file, which need not be there. -/
  write : Path → String → m (Except Refusal Unit)
  /-- Makes a directory inside one that is there. -/
  makeDirectory : Path → m (Except Refusal Unit)
  /-- No chain of directories below a directory is longer. -/
  depthLimit : m Nat
  /-- Tells an event. -/
  tell : Event → m Unit

/-- A job on a file tree, which may end with a fault. -/
abbrev Job (m : Type → Type) (α : Type) := ExceptT Fault m α

section

variable {m : Type → Type} [Monad m] [FileAccess m] {α : Type}

/-- An operation whose refusal ends the job. -/
def allowed (fault : Refusal → Fault) (operation : m (Except Refusal α)) : Job m α :=
  ExceptT.mk (return (← operation).mapError fault)

/-- A result that is there already. -/
def ofResult (result : Except Fault α) : Job m α := ExceptT.mk (return result)

/-- Tells events in order. -/
def tellAll (events : List Event) : Job m Unit := events.forM fun e => ExceptT.lift (FileAccess.tell e)

/-- Whether a path leads to a directory. -/
def isDirectory (path : Path) : m Bool := do
  match ← FileAccess.status path with
  | .ok s => return s.kind == .directory
  | .error _ => return false

end

end InteropBindings
