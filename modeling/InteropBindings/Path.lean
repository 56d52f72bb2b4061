import InteropBindings.Text.RawText

/-!
# Paths

A path is a raw text that names a place in a file tree. Its components are what stands between slashes; empty pieces and
single points do not count, except for a point at the very start.

- paths are ordered and identified by their components (`Path.order`, `Path.same`), not by their text;
- `push` goes down one path from another, and an absolute path starts over;
- `parent`, `fileName` and `relativeTo?` cut a path, keeping the rest of the text as it is written.
-/

namespace InteropBindings

open Text

/-- A path as written. -/
structure Path where
  text : RawText
deriving DecidableEq, Repr

/-- What a path consists of. -/
inductive Component
  /-- The root of the file tree. -/
  | root
  /-- A point at the start of a path. -/
  | here
  /-- Two points. -/
  | parent
  /-- A name. -/
  | normal (name : RawText)
deriving DecidableEq, Repr

namespace Path

/-- A piece between slashes that is no component. -/
def isFiller (piece : List UInt8) : Bool := piece == [] || piece == [point]

/-- The component that a piece between slashes stands for. -/
def componentOf? (piece : List UInt8) : Option Component :=
  if isFiller piece then none
  else if piece == [point, point] then some .parent
  else some (.normal (.ofList piece))

/-- Where a path starts: at the root, at a point, or anywhere. -/
inductive Anchor
  | root
  | here
  | none
deriving DecidableEq

/-- The start of a path and the pieces after it. -/
def split (p : Path) : Anchor × List (List UInt8) :=
  match segmentsOf slash p.text.toList with
  | [] => (.none, [])
  | first :: rest =>
    if first == [] && !rest.isEmpty then (.root, rest)
    else if first == [point] then (.here, rest)
    else (.none, first :: rest)

/-- The path with a given start and given pieces. -/
def unsplit (anchor : Anchor) (pieces : List (List UInt8)) : Path :=
  match anchor with
  | .root => ⟨RawText.ofList (slash :: joinWith slash pieces)⟩
  | .here => ⟨RawText.ofList (joinWith slash ([point] :: pieces))⟩
  | .none => ⟨RawText.ofList (joinWith slash pieces)⟩

/-- Whether a path starts at the root. -/
def isAbsolute (p : Path) : Bool := p.text.beginsWith "/"

/-- The components of a path. -/
def components (p : Path) : List Component :=
  let (anchor, pieces) := p.split
  let rest := pieces.filterMap componentOf?
  match anchor with
  | .root => .root :: rest
  | .here => .here :: rest
  | .none => rest

/-! ## Order -/

/-- The rank of a component among those of another kind. -/
def rank : Component → Nat
  | .root => 0
  | .here => 1
  | .parent => 2
  | .normal _ => 3

/-- The order of components: kinds in turn, names as bytes. -/
def compareComponents : Component → Component → Ordering
  | .normal a, .normal b => compare a b
  | a, b => compare (rank a) (rank b)

/-- The order of component lists, the first difference deciding. -/
def compareLists : List Component → List Component → Ordering
  | [], [] => .eq
  | [], _ :: _ => .lt
  | _ :: _, [] => .gt
  | a :: as, b :: bs => (compareComponents a b).then (compareLists as bs)

/-- The order of paths. -/
def order (p q : Path) : Ordering := compareLists p.components q.components

/-- Whether two texts are the same path. -/
def same (p q : Path) : Bool := p.components == q.components

/-! ## Going down -/

/-- One path followed from another. -/
def push (p q : Path) : Path :=
  if q.isAbsolute then q
  else if p.text.isEmpty || p.text.endsWith "/" then ⟨p.text ++ q.text⟩
  else ⟨p.text ++ "/" ++ q.text⟩

/-- A path followed by a name. -/
def join (p : Path) (name : RawText) : Path := p.push ⟨name⟩

/-! ## Cutting -/

/-- Pieces without the fillers at their end. -/
def trimEnd (pieces : List (List UInt8)) : List (List UInt8) := (pieces.reverse.dropWhile isFiller).reverse

/-- The path without its last component; the root and the empty path have none. -/
def parent (p : Path) : Option Path :=
  let (anchor, pieces) := p.split
  match (trimEnd pieces).reverse with
  | _ :: before => some (unsplit anchor (trimEnd before.reverse))
  | [] => if anchor = .here then some ⟨""⟩ else none

/-- A path and the paths around it, at most `depth` of them, from the inside out. -/
def ancestorsTo : (depth : Nat) → Path → List Path
  | 0, _ => []
  | depth + 1, p =>
    p :: match p.parent with
      | some q => ancestorsTo depth q
      | none => []

/-- A path and the paths around it from the inside out. Each is shorter than the one before. -/
def ancestors (p : Path) : List Path := ancestorsTo (p.text.size + 1) p

/-- The last component, if it is a name. -/
def fileName (p : Path) : Option RawText :=
  match p.components.getLast? with
  | some (.normal n) => some n
  | _ => none

/-- Pieces without the first `n` components and without the fillers before the next one. -/
def dropComponents : Nat → List (List UInt8) → List (List UInt8)
  | 0, pieces => pieces.dropWhile isFiller
  | n + 1, pieces => dropComponents n ((pieces.dropWhile isFiller).drop 1)

/-- The rest of a path below another one, or nothing when it does not lie below it. -/
def relativeTo? (base p : Path) : Option Path :=
  if base.components.isPrefixOf p.components then
    let (anchor, pieces) := p.split
    let count := base.components.length
    if count = 0 then some (unsplit anchor (trimEnd pieces))
    else
      let count := if anchor = .none then count else count - 1
      some (unsplit .none (trimEnd (dropComponents count pieces)))
  else none

/-- The names among the components, as a path. -/
def plain (p : Path) : Path :=
  (p.components.filterMap fun | .normal n => some n | _ => none).foldl join ⟨""⟩

/-- A path as it is shown, with slashes for backslashes. -/
def slashed (p : Path) : String := replaceChar '\\' '/' p.text.shown

/-! ## File names -/

/-- A file name cut at its last point, unless that is its first character: what stands before and after it. -/
def cutName (name : String) : String × Option String :=
  match (segmentsOf '.' name.toList).reverse with
  | ending :: first :: before =>
    let stem := joinWith '.' (first :: before).reverse
    if stem.isEmpty then (name, none) else (String.ofList stem, some (String.ofList ending))
  | _ => (name, none)

end Path

end InteropBindings
