import InteropBindings.Text.Identifier

/-!
# TOML

The part of TOML that settings are written in: keys with a string, a truth value or a list of strings each. Tables,
dotted keys and all other values are refused, because no setting has such a value.

- `entries?` reads the keys and values of a text in order;
- strings come in four forms, in one line or in several, with escapes or without.
-/

namespace InteropBindings.Toml

open Text

/-- The value of a setting. -/
inductive Value
  | text (s : String)
  | flag (b : Bool)
  | texts (ss : List String)
deriving DecidableEq, Repr

/-! ## Blanks, comments and lines -/

/-- Whether a character may stand in comments and strings. -/
def isPlain (c : Char) : Bool := c == '\t' || (0x20 ≤ c.toNat && c.toNat != 0x7F)

/-- Whether a character is a blank inside a line. -/
def isSpace (c : Char) : Bool := c == ' ' || c == '\t'

/-- The text after the blanks at its start. -/
def skipSpace (cs : List Char) : List Char := cs.dropWhile isSpace

/-- The text after a comment, if there is one. -/
def skipComment (cs : List Char) : List Char :=
  match cs with
  | '#' :: rest => rest.dropWhile isPlain
  | _ => cs

/-- The text after the end of a line. -/
def endLine? : List Char → Option (List Char)
  | [] => some []
  | '\n' :: rest => some rest
  | '\r' :: '\n' :: rest => some rest
  | _ => none

/-- The text after blanks, line ends and comments. -/
def skipFiller : (inComment : Bool) → List Char → List Char
  | _, [] => []
  | _, '\n' :: rest => skipFiller false rest
  | _, '\r' :: '\n' :: rest => skipFiller false rest
  | true, c :: rest => if isPlain c then skipFiller true rest else c :: rest
  | false, c :: rest =>
    if isSpace c then skipFiller false rest else if c == '#' then skipFiller true rest else c :: rest

/-! ## Strings -/

/-- The character with a number written in hexadecimal digits. -/
def hexChar? (digits : List Char) : Option Char := do
  let n ← digits.foldlM (fun n d => do return n * 16 + (← digitValue? 16 d)) 0
  if n.isValidChar then some (Char.ofNat n) else none

/-- The character that a one-letter escape stands for. -/
def escaped? (c : Char) : Option Char :=
  if c == 'b' then some (Char.ofNat 8) else if c == 't' then some '\t' else if c == 'n' then some '\n'
  else if c == 'f' then some (Char.ofNat 12) else if c == 'r' then some '\r'
  else if c == '"' || c == '\\' then some c else none

/-- A string with escapes in one line, after its opening quote; gathered in reverse. -/
def scanBasic : (gathered : List Char) → List Char → Option (List Char × List Char)
  | gathered, '\\' :: 'u' :: a :: b :: c :: d :: rest =>
    match hexChar? [a, b, c, d] with
    | some x => scanBasic (x :: gathered) rest
    | none => none
  | gathered, '\\' :: 'U' :: a :: b :: c :: d :: e :: f :: g :: h :: rest =>
    match hexChar? [a, b, c, d, e, f, g, h] with
    | some x => scanBasic (x :: gathered) rest
    | none => none
  | gathered, '\\' :: c :: rest =>
    match escaped? c with
    | some x => scanBasic (x :: gathered) rest
    | none => none
  | gathered, '"' :: rest => some (gathered.reverse, rest)
  | gathered, c :: rest => if isPlain c && c != '\\' then scanBasic (c :: gathered) rest else none
  | _, [] => none

/-- A string without escapes in one line, after its opening quote; gathered in reverse. -/
def scanLiteral : (gathered : List Char) → List Char → Option (List Char × List Char)
  | gathered, '\x27' :: rest => some (gathered.reverse, rest)
  | gathered, c :: rest => if isPlain c then scanLiteral (c :: gathered) rest else none
  | _, [] => none

/-- Where a scanner stands in a string of several lines. -/
inductive Fold
  | text
  /-- After a backslash, before the end of its line. -/
  | slash
  /-- After a line that ends with a backslash. -/
  | margin

/-- A string with escapes in several lines, after its opening quotes; gathered in reverse. A backslash at the end of a
line drops all blanks and line ends after it. -/
def scanLongBasic : Fold → (gathered : List Char) → List Char → Option (List Char × List Char)
  | .slash, gathered, '\n' :: rest => scanLongBasic .margin gathered rest
  | .slash, gathered, '\r' :: '\n' :: rest => scanLongBasic .margin gathered rest
  | .slash, gathered, ' ' :: rest => scanLongBasic .slash gathered rest
  | .slash, gathered, '\t' :: rest => scanLongBasic .slash gathered rest
  | .slash, _, _ => none
  | .margin, gathered, '\n' :: rest => scanLongBasic .margin gathered rest
  | .margin, gathered, '\r' :: '\n' :: rest => scanLongBasic .margin gathered rest
  | .margin, gathered, ' ' :: rest => scanLongBasic .margin gathered rest
  | .margin, gathered, '\t' :: rest => scanLongBasic .margin gathered rest
  | _, gathered, '\\' :: 'u' :: a :: b :: c :: d :: rest =>
    match hexChar? [a, b, c, d] with
    | some x => scanLongBasic .text (x :: gathered) rest
    | none => none
  | _, gathered, '\\' :: 'U' :: a :: b :: c :: d :: e :: f :: g :: h :: rest =>
    match hexChar? [a, b, c, d, e, f, g, h] with
    | some x => scanLongBasic .text (x :: gathered) rest
    | none => none
  | _, gathered, '\\' :: '\n' :: rest => scanLongBasic .margin gathered rest
  | _, gathered, '\\' :: '\r' :: '\n' :: rest => scanLongBasic .margin gathered rest
  | _, gathered, '\\' :: c :: rest =>
    if isSpace c then scanLongBasic .slash gathered rest
    else match escaped? c with
      | some x => scanLongBasic .text (x :: gathered) rest
      | none => none
  | _, gathered, '"' :: '"' :: '"' :: '"' :: '"' :: rest => some (('"' :: '"' :: gathered).reverse, rest)
  | _, gathered, '"' :: '"' :: '"' :: '"' :: rest => some (('"' :: gathered).reverse, rest)
  | _, gathered, '"' :: '"' :: '"' :: rest => some (gathered.reverse, rest)
  | _, gathered, '\n' :: rest => scanLongBasic .text ('\n' :: gathered) rest
  | _, gathered, '\r' :: '\n' :: rest => scanLongBasic .text ('\n' :: gathered) rest
  | _, gathered, c :: rest => if isPlain c && c != '\\' then scanLongBasic .text (c :: gathered) rest else none
  | _, _, [] => none

/-- A string without escapes in several lines, after its opening quotes; gathered in reverse. -/
def scanLongLiteral : (gathered : List Char) → List Char → Option (List Char × List Char)
  | gathered, '\x27' :: '\x27' :: '\x27' :: '\x27' :: '\x27' :: rest =>
      some (('\x27' :: '\x27' :: gathered).reverse, rest)
  | gathered, '\x27' :: '\x27' :: '\x27' :: '\x27' :: rest => some (('\x27' :: gathered).reverse, rest)
  | gathered, '\x27' :: '\x27' :: '\x27' :: rest => some (gathered.reverse, rest)
  | gathered, '\n' :: rest => scanLongLiteral ('\n' :: gathered) rest
  | gathered, '\r' :: '\n' :: rest => scanLongLiteral ('\n' :: gathered) rest
  | gathered, c :: rest => if isPlain c then scanLongLiteral (c :: gathered) rest else none
  | _, [] => none

/-- The text after a line end right behind the opening quotes, if there is one. -/
def skipFirstLineEnd : List Char → List Char
  | '\n' :: rest => rest
  | '\r' :: '\n' :: rest => rest
  | cs => cs

/-- A string in one line. -/
def shortString? : List Char → Option (List Char × List Char)
  | '"' :: rest => scanBasic [] rest
  | '\x27' :: rest => scanLiteral [] rest
  | _ => none

/-- A string of any form. -/
def string? : List Char → Option (String × List Char)
  | '"' :: '"' :: '"' :: rest => (scanLongBasic .text [] (skipFirstLineEnd rest)).map fun r => (String.ofList r.1, r.2)
  | '\x27' :: '\x27' :: '\x27' :: rest =>
    (scanLongLiteral [] (skipFirstLineEnd rest)).map fun r => (String.ofList r.1, r.2)
  | cs => (shortString? cs).map fun r => (String.ofList r.1, r.2)

/-! ## Keys, values and entries -/

/-- Whether a character may stand in a key without quotes. -/
def isBare (c : Char) : Bool := c.isAlphanum || c == '_' || c == '-'

/-- A key that is no dotted one. -/
def key? (cs : List Char) : Option (String × List Char) :=
  match shortString? cs with
  | some (name, rest) => some (String.ofList name, rest)
  | none =>
    let name := cs.takeWhile isBare
    if name.isEmpty then none else some (String.ofList name, cs.dropWhile isBare)

/-- The strings of a list after its opening bracket, at most `budget` of them; gathered in reverse. A last comma is
allowed. -/
def strings? : (budget : Nat) → (gathered : List String) → List Char → Option (List String × List Char)
  | 0, _, _ => none
  | budget + 1, gathered, cs =>
    match skipFiller false cs with
    | ']' :: rest => some (gathered.reverse, rest)
    | cs =>
      match string? cs with
      | none => none
      | some (s, rest) =>
        match skipFiller false rest with
        | ',' :: rest => strings? budget (s :: gathered) rest
        | ']' :: rest => some ((s :: gathered).reverse, rest)
        | _ => none

/-- A value. -/
def value? : List Char → Option (Value × List Char)
  | 't' :: 'r' :: 'u' :: 'e' :: rest => some (.flag true, rest)
  | 'f' :: 'a' :: 'l' :: 's' :: 'e' :: rest => some (.flag false, rest)
  | '[' :: rest => (strings? (rest.length + 1) [] rest).map fun r => (.texts r.1, r.2)
  | cs => (string? cs).map fun r => (.text r.1, r.2)

/-- A key, an equals sign and a value. -/
def entry? (cs : List Char) : Option ((String × Value) × List Char) := do
  let (key, rest) ← key? cs
  match skipSpace rest with
  | '=' :: rest =>
    let (value, rest) ← value? (skipSpace rest)
    return ((key, value), rest)
  | _ => none

/-- The entries of a text, at most `budget` lines of it. -/
def lines? : (budget : Nat) → List Char → Option (List (String × Value))
  | 0, _ => none
  | _ + 1, [] => some []
  | budget + 1, cs =>
    let start := skipSpace cs
    match endLine? (skipComment start) with
    | some rest => lines? budget rest
    | none => do
      let (entry, rest) ← entry? start
      let rest ← endLine? (skipComment (skipSpace rest))
      return entry :: (← lines? budget rest)

/-- The keys and values of a text, which may start with a byte order mark. -/
def entries? (text : String) : Option (List (String × Value)) :=
  let cs := match text.toList with
    | c :: rest => if c.toNat == 0xFEFF then rest else c :: rest
    | [] => []
  lines? (cs.length + 1) cs

end InteropBindings.Toml
