import InteropBindings.Path
import InteropBindings.Refusal

/-!
# Faults

What can end a run. Every fault has a kind, and a message that starts with words for its kind.
-/

namespace InteropBindings

/-- What ends a run. -/
inductive Fault
  /-- The file tree refused an operation. -/
  | refused (reason : Refusal)
  /-- A declaration file could not be read. -/
  | unreadable (file : Path) (reason : Refusal)
  /-- There is no input directory. -/
  | noInputDirectory (dir : Path)
  /-- The search for declaration files met an entry that leads nowhere. -/
  | brokenEntry (entry : Path) (reason : Refusal)
  /-- The search for declaration files met a link to a directory around it. -/
  | loop (link ancestor : Path)
  /-- The text of a declaration file does not follow the grammar. -/
  | unparsable (file : Path) (expected : String)
  /-- A path has no place in the output. -/
  | invalidPath (path : Path)
  | inputNotSet
  | outputNotSet
  /-- The settings could not be read. -/
  | unreadableSettings (file : Path) (reason : Refusal)
  /-- The text of the settings is malformed. -/
  | malformedSettings (reason : String)
  /-- There is nothing to make bindings from. -/
  | noDeclarationFiles (dir : Path)
deriving DecidableEq, Repr

/-- The kinds of faults. -/
inductive FaultKind
  | io | typeScriptParse | invalidPath | config | configParse | noDeclarationFiles
deriving DecidableEq, Repr

namespace Fault

/-- The kind of a fault. -/
def kind : Fault → FaultKind
  | .refused _ | .unreadable .. | .noInputDirectory _ | .brokenEntry .. | .loop .. => .io
  | .unparsable .. => .typeScriptParse
  | .invalidPath _ => .invalidPath
  | .inputNotSet | .outputNotSet | .unreadableSettings .. => .config
  | .malformedSettings _ => .configParse
  | .noDeclarationFiles _ => .noDeclarationFiles

/-- What happened. -/
def detail : Fault → String
  | .refused reason => reason.text
  | .unreadable file reason => "Failed to read " ++ file.text.shown ++ ": " ++ reason.text
  | .noInputDirectory dir => "Input directory " ++ dir.text.shown ++ " does not exist"
  | .brokenEntry entry reason => "IO error for operation on " ++ entry.text.shown ++ ": " ++ reason.text
  | .loop link ancestor =>
    "File system loop found: " ++ link.text.shown ++ " points to an ancestor " ++ ancestor.text.shown
  | .unparsable file expected => file.text.shown ++ ": expected " ++ expected
  | .invalidPath path => path.text.shown
  | .inputNotSet => "input_dir is not set"
  | .outputNotSet => "output_dir is not set"
  | .unreadableSettings file reason => "Failed to read " ++ file.text.shown ++ ": " ++ reason.text
  | .malformedSettings reason => reason
  | .noDeclarationFiles dir => dir.text.shown

/-- The words for a kind, before what happened. -/
def heading : FaultKind → String
  | .io => "IO error: "
  | .typeScriptParse => "TypeScript parse error in "
  | .invalidPath => "Invalid path: "
  | .config => "Configuration error: "
  | .configParse => "Invalid configuration file: "
  | .noDeclarationFiles => "No .d.ts files found in "

/-- The message of a fault. -/
def message (f : Fault) : String := heading f.kind ++ f.detail

/-- The messages of a fault and of what lies behind it, the fault first. -/
def chain : Fault → List String
  | .brokenEntry entry reason =>
    [(brokenEntry entry reason).message, (brokenEntry entry reason).detail, reason.text]
  | .malformedSettings reason => [(malformedSettings reason).message, reason]
  | f => if f.kind = .io then [f.message, f.detail] else [f.message]

end Fault

end InteropBindings
