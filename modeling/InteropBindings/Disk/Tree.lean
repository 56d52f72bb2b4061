import InteropBindings.Ledger
import InteropBindings.Path

/-!
# File trees

A file tree in memory: what stands at each place, in the order in which it came there.
-/

namespace InteropBindings

/-- A place in a file tree: the names on the way from its root. -/
abbrev Place := List RawText

/-- What a file holds: a text, or bytes that are no text. -/
inductive Content
  | text (s : String)
  | bytes (bs : List UInt8)
deriving DecidableEq, Repr

/-- What stands at a place. -/
inductive Entry
  | directory
  | file (content : Content)
  | link (target : Path)
deriving DecidableEq, Repr

/-- A file tree, and the directory in it where paths start. -/
structure Disk where
  entries : Ledger Place Entry := .empty
  workingDirectory : Place := []
deriving DecidableEq, Repr

namespace Disk

/-- What stands at a place. The root is always a directory. -/
def entryAt (d : Disk) (place : Place) : Option Entry :=
  if place = [] then some .directory else d.entries.get? place

/-- Puts something at a place. -/
def put (d : Disk) (place : Place) (entry : Entry) : Disk := { d with entries := d.entries.put place entry }

/-- Removes a place and all places below it. -/
def remove (d : Disk) (place : Place) : Disk := { d with entries := d.entries.without place.isPrefixOf }

/-- The name that a place has in a directory, if it stands there. -/
def nameIn (directory place : Place) : Option RawText :=
  match place.drop directory.length with
  | [name] => if directory.isPrefixOf place then some name else none
  | _ => none

/-- The entries of a directory by their names. -/
def children (d : Disk) (directory : Place) : List (RawText × Entry) :=
  d.entries.entries.filterMap fun e => (nameIn directory e.1).map fun name => (name, e.2)

theorem entryAt_put (d : Disk) (place place' : Place) (entry : Entry) (h : place ≠ []) :
    (d.put place entry).entryAt place' = if place = place' then some entry else d.entryAt place' := by
  by_cases h' : place' = []
  · subst h'; simp [entryAt, h]
  · simp [entryAt, put, h', Ledger.get?_put]

end Disk

end InteropBindings
