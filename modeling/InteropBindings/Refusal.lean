/-!
# Refusals

Why an operation on the file tree was refused, and how that is told.
-/

namespace InteropBindings

/-- Why an operation on the file tree was refused. -/
inductive Refusal
  | missing
  | alreadyThere
  | notDirectory
  | isDirectory
  | nameTooLong
  | tooManyLinks
  /-- The name of a file holds the character zero. -/
  | zeroInName
  /-- The content of a file is no text. -/
  | noText
  /-- Any other reason, in the words of the system. -/
  | other (reason : String)
deriving DecidableEq, Repr

/-- The text of a refusal. -/
def Refusal.text : Refusal → String
  | .missing => "No such file or directory (os error 2)"
  | .alreadyThere => "File exists (os error 17)"
  | .notDirectory => "Not a directory (os error 20)"
  | .isDirectory => "Is a directory (os error 21)"
  | .nameTooLong => "File name too long (os error 36)"
  | .tooManyLinks => "Too many levels of symbolic links (os error 40)"
  | .zeroInName => "file name contained an unexpected NUL byte"
  | .noText => "stream did not contain valid UTF-8"
  | .other reason => reason

end InteropBindings
