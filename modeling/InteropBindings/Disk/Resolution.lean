import InteropBindings.Disk.Tree
import InteropBindings.Refusal

/-!
# Where paths lead

A path is followed name by name through a file tree; two points lead one directory up, and a link leads on along its
target. At most forty links are followed.
-/

namespace InteropBindings

open Text

/-- Where a path leads: to an entry, or to a free place in a directory. -/
inductive Target
  | entry (place : Place) (entry : Entry)
  | free (place : Place)
deriving DecidableEq, Repr

namespace Disk

/-- Whether a piece of a path leads nowhere else. -/
def staysHere (piece : RawText) : Bool := piece == "" || piece == "."

/-- Where a path starts. -/
def startOf (here : Place) (path : Path) : Place := if path.isAbsolute then [] else here

/-- The pieces of a path between slashes. -/
def pieces (path : Path) : List RawText := path.text.segments slash

/-- Follows the pieces of a path from a directory on. `onLink` follows further pieces after a link; a link at the very
end is followed only if `last` says so, and then a slash at the end keeps a free place for a directory. -/
def follow (d : Disk) (last : Bool) (onLink : Place → List RawText → Except Refusal Target) :
    Place → List RawText → Except Refusal Target
  | here, [] => .ok (.entry here .directory)
  | here, piece :: rest =>
    if staysHere piece then follow d last onLink here rest
    else if piece == ".." then follow d last onLink here.dropLast rest
    else if 255 < piece.size then .error .nameTooLong
    else
      let place := here ++ [piece]
      match d.entryAt place with
      | none =>
        if !rest.all (· == "") then .error .missing
        else if last && !rest.isEmpty then .error .isDirectory
        else .ok (.free place)
      | some .directory => follow d last onLink place rest
      | some (.file content) => if rest.isEmpty then .ok (.entry place (.file content)) else .error .notDirectory
      | some (.link target) =>
        if rest.isEmpty && !last then .ok (.entry place (.link target))
        else onLink (startOf here target) (pieces target ++ rest)

/-- Follows the pieces of a path over fewer than `links` links. -/
def followLinks (d : Disk) (last : Bool) : (links : Nat) → Place → List RawText → Except Refusal Target
  | 0, _, _ => .error .tooManyLinks
  | links + 1, here, rest => follow d last (followLinks d last links) here rest

/-- Where a path leads. -/
def resolve (d : Disk) (last : Bool) (path : Path) : Except Refusal Target :=
  if path.text.toList.contains 0 then .error .zeroInName
  else if path.text.isEmpty then .error .missing
  else if 4096 ≤ path.text.size then .error .nameTooLong
  else followLinks d last 41 (startOf d.workingDirectory path) (pieces path)

/-- A path without the slashes at its end, except for the root itself. -/
def withoutEndSlashes (path : Path) : Path :=
  let trimmed := (path.text.toList.reverse.dropWhile (· == slash)).reverse
  if trimmed.isEmpty then path else ⟨.ofList trimmed⟩

end Disk

end InteropBindings
