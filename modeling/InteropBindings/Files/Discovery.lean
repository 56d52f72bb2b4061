import InteropBindings.Files.Access
import InteropBindings.Symbol.Platform

/-!
# Discovery of declaration files

All declaration files at any depth below a directory, in the order of their paths. Links are followed; a link to a
directory around it and a link that leads nowhere are faults.
-/

namespace InteropBindings

open Text

/-- Whether a path names a declaration file. A name that spells no string is none. -/
def isDeclarationFile (path : Path) : Bool := (path.fileName.bind RawText.string?).any (endsWith ".d.ts")

/-- What a search meets. -/
inductive Found
  | file (path : Path)
  | fault (fault : Fault)
deriving DecidableEq, Repr

/-- A directory on the way down, by its path and its place. -/
structure Ancestor where
  path : Path
  place : List RawText
deriving DecidableEq, Repr

section

variable {m : Type → Type} [Monad m] [FileAccess m]

/-- What is met at an entry of a directory. A directory is searched by `deeper`, given the directories around it from
the inside out. -/
def searchEntry (deeper : List Ancestor → Path → m (List Found)) (around : List Ancestor) (path : Path) :
    Kind → m (List Found)
  | .file => return [.file path]
  | .other => return []
  | kind => do
    match ← FileAccess.status path with
    | .error reason => return [.fault (.brokenEntry path reason)]
    | .ok status =>
      match status.kind with
      | .file => return [.file path]
      | .directory =>
        match if kind = .link then around.find? (·.place == status.place) else none with
        | some ancestor => return [.fault (.loop path ancestor.path)]
        | none => deeper (⟨path, status.place⟩ :: around) path
      | _ => return []

/-- What is met at the entries of a directory. -/
def searchEntries (deeper : List Ancestor → Path → m (List Found)) (around : List Ancestor) (dir : Path) :
    List (RawText × Kind) → m (List Found)
  | [] => return []
  | (name, kind) :: rest => do
    let first ← searchEntry deeper around (dir.join name) kind
    return first ++ (← searchEntries deeper around dir rest)

/-- What is met below a directory, at most at a given depth. -/
def search : (depth : Nat) → List Ancestor → Path → m (List Found)
  | 0, _, _ => return []
  | depth + 1, around, dir => do
    match ← FileAccess.list dir with
    | .error reason => return [.fault (.brokenEntry dir reason)]
    | .ok entries => searchEntries (search depth) around dir entries

end

/-! ## Choosing declaration files -/

/-- The declaration files among what was met, without platform files, or the first fault. -/
def declarationFiles (platform : PlatformFilter) : List Found → Except Fault (List Path)
  | [] => .ok []
  | .fault fault :: _ => .error fault
  | .file path :: rest =>
    if isDeclarationFile path && !platform.isPlatform path then (declarationFiles platform rest).map (path :: ·)
    else declarationFiles platform rest

/-- What is told of what was met, up to the first fault. -/
def declarationFileEvents (platform : PlatformFilter) : List Found → List Event
  | [] => []
  | .fault _ :: _ => []
  | .file path :: rest =>
    if isDeclarationFile path && platform.isPlatform path then
      .platformFileExcluded path :: declarationFileEvents platform rest
    else declarationFileEvents platform rest

/-- Paths in their order. -/
def sortedPaths (paths : List Path) : List Path := paths.mergeSort fun p q => (p.order q).isLE

/-- The declaration files below a directory. There must be one at least. -/
def discover {m : Type → Type} [Monad m] [FileAccess m] (dir : Path) (platform : PlatformFilter) :
    Job m (List Path) := do
  match ← ExceptT.lift (FileAccess.status dir) with
  | .error _ => throw (.noInputDirectory dir)
  | .ok status =>
    unless status.kind = .directory do throw (.noInputDirectory dir)
    let found ← ExceptT.lift (search (← ExceptT.lift FileAccess.depthLimit) [⟨dir, status.place⟩] dir)
    tellAll (declarationFileEvents platform found)
    match declarationFiles platform found with
    | .error fault => throw fault
    | .ok [] => throw (.noDeclarationFiles dir)
    | .ok files =>
      tellAll [.filesFound files.length dir]
      return sortedPaths files

end InteropBindings
