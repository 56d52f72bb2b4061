import InteropBindings.CommandLine
import InteropBindings.TypeScript

/-!
# The program

The command line on the file system of the machine, with the parser for TypeScript.
-/

namespace InteropBindings

/-- The number that the system gives to an error, which may come negated. -/
def systemCode (e : IO.Error) : Option UInt32 := (given e).map fun n => if n < 0x80000000 then n else -n
where
  /-- The number as it comes. -/
  given : IO.Error → Option UInt32
    | .alreadyExists _ n _ | .interrupted _ n _ | .noFileOrDirectory _ n _ | .invalidArgument _ n _
    | .permissionDenied _ n _ | .resourceExhausted _ n _ | .inappropriateType _ n _ | .noSuchThing _ n _
    | .otherError n _ | .resourceBusy n _ | .resourceVanished n _ | .unsupportedOperation n _ | .hardwareFault n _
    | .unsatisfiedConstraints n _ | .illegalOperation n _ | .protocolError n _ | .timeExpired n _ => some n
    | .unexpectedEof | .userError _ => none

/-- The refusal that an error of the system stands for. -/
def Refusal.ofSystem (e : IO.Error) : Refusal :=
  match systemCode e with
  | some 2 => .missing
  | some 17 => .alreadyThere
  | some 20 => .notDirectory
  | some 21 => .isDirectory
  | some 36 => .nameTooLong
  | some 40 => .tooManyLinks
  | _ => .other (toString e)

/-- An action of the system whose errors are refusals. -/
def refusing {α : Type} (action : IO α) : IO (Except Refusal α) := do
  match ← action.toBaseIO with
  | .ok a => return .ok a
  | .error e => return .error (.ofSystem e)

/-- The kind of what the system calls by a type. -/
def Kind.ofSystem : IO.FS.FileType → Kind
  | .dir => .directory
  | .file => .file
  | .symlink => .link
  | .other => .other

/-- What a path leads to, with the place in its form without links. -/
def statusOnMachine (path : Path) : IO Status := do
  let place ← IO.FS.realPath path.text.shown
  return ⟨.ofSystem (← place.metadata).type, [(place.toString : String)]⟩

/-- The names in a directory with what stands under each. -/
def listOnMachine (path : Path) : IO (List (RawText × Kind)) := do
  let place ← IO.FS.realPath path.text.shown
  (← place.readDir).toList.mapM fun entry => do
    return (entry.fileName, .ofSystem (← entry.path.symlinkMetadata).type)

/-- The text of a file. -/
def readOnMachine (path : Path) : IO (Except Refusal String) := do
  match ← refusing (IO.FS.readBinFile path.text.shown) with
  | .ok bytes =>
    match String.fromUTF8? bytes with
    | some text => return .ok text
    | none => return .error .noText
  | .error reason => return .error reason

/-- The name of a level in the log. -/
def Level.name : Level → String
  | .trace => "TRACE"
  | .debug => "DEBUG"
  | .info => "INFO"
  | .warn => "WARN"

instance : FileAccess IO where
  status path := refusing (statusOnMachine path)
  list path := refusing (listOnMachine path)
  read path := readOnMachine path
  write path text := refusing (IO.FS.writeFile path.text.shown text)
  makeDirectory path := refusing (IO.FS.createDir path.text.shown)
  depthLimit := return 4096
  tell event := if event.level = .warn then IO.eprintln (event.level.name ++ " " ++ event.text) else return ()

/-- Whether the terminal shows colours. -/
def showsColours : IO Bool := do
  if (← IO.getEnv "NO_COLOR").isSome then return false
  match ← IO.getEnv "TERM" with
  | some term => return term != "dumb"
  | none => return false

end InteropBindings

open InteropBindings in
/-- Does what the arguments ask for. -/
def main (arguments : List String) : IO UInt32 := do
  let reply ← answer typeScript arguments (← showsColours)
  IO.print reply.output
  IO.eprint reply.errors
  return if reply.succeeds then 0 else 1
