import InteropBindings.Number.Binary64
import InteropBindings.Text.Identifier
import InteropBindings.Text.Units

/-!
# Tokens

Source text is cut into tokens on demand: `scan` passes over blanks and comments and takes one token.

- A closing angle bracket is always a token of its own, so that nested type arguments need no special care.
- A literal that cannot be read is the token `invalid`, which no rule accepts.
-/

namespace InteropBindings.Source

open InteropBindings.Text InteropBindings.Number

/-- A token. -/
inductive Token
  | word (name : String)
  | privateName (name : String)
  | sign (text : String)
  | text (value : String)
  | number (value : Decimal)
  | bigint (value : Nat)
  | invalid
  | finish
deriving DecidableEq

/-! ## Words -/

/-- Words that never name anything that is referred to. -/
def reservedWords : List String :=
  ["break", "case", "catch", "class", "const", "continue", "debugger", "default", "delete", "do", "else", "export",
   "extends", "finally", "for", "function", "if", "import", "in", "instanceof", "new", "null", "return", "super",
   "switch", "this", "throw", "true", "false", "try", "typeof", "var", "void", "while", "with"]

/-- Further words that cannot be referred to inside a module. -/
def moduleWords : List String :=
  ["let", "await", "yield", "enum", "implements", "interface", "package", "private", "protected", "public"]

/-- Whether a word cannot be referred to. -/
def isReserved (name : String) : Bool := reservedWords.contains name || moduleWords.contains name

/-- Where a scanner stands in an escape. -/
inductive Escape
  | none
  | braced (value : Nat) (digits : Nat)

/-- The number of four hexadecimal digits. -/
def fourDigits? (a b c d : Char) : Option Nat := do
  return ((← digitValue? 16 a) * 16 + (← digitValue? 16 b)) * 256 + (← digitValue? 16 c) * 16 + (← digitValue? 16 d)

/-- The rest of a word, gathered in reverse; nothing when an escape is malformed. -/
def scanWord (isPart : Bool → Char → Bool) :
    Escape → (gathered : List Char) → (escaped : Bool) → List Char → Option (List Char × Bool × List Char)
  | .braced value digits, gathered, _, '}' :: rest =>
    if digits = 0 ∨ 0x10FFFF < value ∨ !isPart gathered.isEmpty (Char.ofNat value) then none
    else scanWord isPart .none (Char.ofNat value :: gathered) true rest
  | .braced value digits, gathered, _, c :: rest =>
    match digitValue? 16 c with
    | some v => scanWord isPart (.braced (value * 16 + v) (digits + 1)) gathered true rest
    | none => none
  | .braced .., _, _, [] => none
  | .none, gathered, _, '\\' :: 'u' :: '{' :: rest => scanWord isPart (.braced 0 0) gathered true rest
  | .none, gathered, _, '\\' :: 'u' :: a :: b :: c :: d :: rest =>
    match fourDigits? a b c d with
    | some value =>
      if isPart gathered.isEmpty (Char.ofNat value) then
        scanWord isPart .none (Char.ofNat value :: gathered) true rest
      else none
    | none => none
  | .none, gathered, escaped, c :: rest =>
    if c == '\\' then none
    else if isPart gathered.isEmpty c then scanWord isPart .none (c :: gathered) escaped rest
    else some (gathered.reverse, escaped, c :: rest)
  | .none, gathered, escaped, [] => some (gathered.reverse, escaped, [])

/-- Whether a character may stand in an identifier, at its start or further on. -/
def isWordPart (first : Bool) (c : Char) : Bool := if first then isIdentifierStart c else isIdentifierPart c

/-- A word token. A reserved word cannot be written with escapes. -/
def scanWordToken (cs : List Char) : Token × List Char :=
  match scanWord isWordPart .none [] false cs with
  | some (name, escaped, rest) =>
    let name := String.ofList name
    if escaped && isReserved name then (.invalid, rest) else (.word name, rest)
  | none => (.invalid, [])

/-- A private name, after its number sign. -/
def scanPrivateName (cs : List Char) : Token × List Char :=
  match scanWord isWordPart .none [] false cs with
  | some (name, _, rest) => if name.isEmpty then (.invalid, rest) else (.privateName (String.ofList name), rest)
  | none => (.invalid, [])

/-! ## String literals -/

/-- The units of a string literal after its opening quote, gathered in reverse; nothing when an escape is malformed.
A literal that is not closed ends with its line. -/
def scanText (quote : Char) : Escape → List CodeUnit → List Char → Option (List CodeUnit × List Char)
  | .braced value digits, units, '}' :: rest =>
    if digits = 0 ∨ 0x10FFFF < value then none else scanText quote .none (.ofNat value :: units) rest
  | .braced value digits, units, c :: rest =>
    match digitValue? 16 c with
    | some v => scanText quote (.braced (value * 16 + v) (digits + 1)) units rest
    | none => none
  | .braced .., _, [] => none
  | .none, units, '\\' :: '\r' :: '\n' :: rest => scanText quote .none units rest
  | .none, units, '\\' :: 'u' :: '{' :: rest => scanText quote (.braced 0 0) units rest
  | .none, units, '\\' :: 'u' :: a :: b :: c :: d :: rest =>
    match fourDigits? a b c d with
    | some value => scanText quote .none (.ofNat value :: units) rest
    | none => none
  | .none, units, '\\' :: 'x' :: a :: b :: rest =>
    match fourDigits? '0' '0' a b with
    | some value => scanText quote .none (.ofNat value :: units) rest
    | none => none
  | .none, units, '\\' :: a :: b :: c :: rest =>
    if isLineEnd a then scanText quote .none units (b :: c :: rest)
    else if a == 'u' || a == 'x' then none
    else match digitValue? 8 a with
      | some x =>
        match digitValue? 8 b with
        | some y =>
          match digitValue? 8 c with
          | some z =>
            if x < 4 then scanText quote .none (.ofNat (x * 64 + y * 8 + z) :: units) rest
            else scanText quote .none (.ofNat (x * 8 + y) :: units) (c :: rest)
          | none => scanText quote .none (.ofNat (x * 8 + y) :: units) (c :: rest)
        | none => scanText quote .none (.ofNat x :: units) (b :: c :: rest)
      | none => scanText quote .none (.char (plainEscape a) :: units) (b :: c :: rest)
  | .none, units, '\\' :: a :: rest =>
    if isLineEnd a then scanText quote .none units rest
    else if a == 'u' || a == 'x' then none
    else match digitValue? 8 a with
      | some x => scanText quote .none (.ofNat x :: units) rest
      | none => scanText quote .none (.char (plainEscape a) :: units) rest
  | .none, units, c :: rest =>
    if c == quote then some (units.reverse, rest)
    else if c == '\n' || c == '\r' then some (units.reverse, c :: rest)
    else scanText quote .none (.char c :: units) rest
  | .none, units, [] => some (units.reverse, [])
where
  /-- The character that a one-letter escape stands for. -/
  plainEscape (c : Char) : Char :=
    if c == 'n' then '\n' else if c == 't' then '\t' else if c == 'r' then '\r'
    else if c == 'b' then Char.ofNat 8 else if c == 'v' then Char.ofNat 11 else if c == 'f' then Char.ofNat 12
    else c

/-- A string token, after its opening quote. -/
def scanTextToken (quote : Char) (cs : List Char) : Token × List Char :=
  match scanText quote .none [] cs with
  | some (units, rest) => (.text (String.ofList (textOfUnits units)), rest)
  | none => (.invalid, [])

/-! ## Numbers -/

/-- The digits of a number system with underscores between them: their value, how many there are, and the rest. -/
def scanDigits (base : Nat) : (value count : Nat) → List Char → Nat × Nat × List Char
  | value, count, c :: rest =>
    match digitValue? base c with
    | some v => scanDigits base (value * base + v) (count + 1) rest
    | none => if c == '_' && 0 < count then scanDigits base value count rest else (value, count, c :: rest)
  | value, count, [] => (value, count, [])

/-- A number ends before anything that is no part of a name. -/
def endNumber (token : Token) (rest : List Char) : Token × List Char :=
  match rest with
  | c :: _ => if isIdentifierStart c || c == '\\' then (.invalid, rest) else (token, rest)
  | [] => (token, rest)

/-- The exponent of a decimal number, if one is written. -/
def scanExponent (cs : List Char) : Option (Int × List Char) :=
  match cs with
  | c :: rest =>
    if c == 'e' || c == 'E' then
      let (negative, digits) := match rest with
        | '-' :: more => (true, more)
        | '+' :: more => (false, more)
        | _ => (false, rest)
      let (value, count, after) := scanDigits 10 0 0 digits
      if count = 0 then none else some (if negative then -(value : Int) else value, after)
    else some (0, cs)
  | [] => some (0, cs)

/-- A decimal number from its point on, after the digits of its whole part. -/
def scanFraction (whole : Nat) (cs : List Char) : Token × List Char :=
  let (digits, places, rest) := match cs with
    | '.' :: more => let (value, count, after) := scanFractionDigits whole more; (value, count, after)
    | _ => (whole, 0, cs)
  match scanExponent rest with
  | some (exponent, after) => endNumber (.number ⟨digits, exponent - places⟩) after
  | none => (.invalid, [])
where
  /-- The digits after the point, appended to the whole part. -/
  scanFractionDigits (whole : Nat) (cs : List Char) : Nat × Nat × List Char := scanDigits 10 whole 0 cs

/-- A number with a given base, after its mark. -/
def scanBased (base : Nat) (cs : List Char) : Token × List Char :=
  let (value, count, rest) := scanDigits base 0 0 cs
  if count = 0 then (.invalid, [])
  else match rest with
    | 'n' :: after => endNumber (.bigint value) after
    | _ => endNumber (.number ⟨value, 0⟩) rest

/-- A number token. A leading zero before further octal digits makes an octal number. -/
def scanNumber (cs : List Char) : Token × List Char :=
  let decimal : Token × List Char :=
    let (whole, _, rest) := scanDigits 10 0 0 cs
    match rest with
    | 'n' :: after => endNumber (.bigint whole) after
    | _ => scanFraction whole rest
  match cs with
  | '0' :: mark :: rest =>
    if mark == 'x' || mark == 'X' then scanBased 16 rest
    else if mark == 'o' || mark == 'O' then scanBased 8 rest
    else if mark == 'b' || mark == 'B' then scanBased 2 rest
    else if mark.isDigit then
      let run := (mark :: rest).takeWhile Char.isDigit
      if run.all fun c => (digitValue? 8 c).isSome then
        let (value, _, after) := scanDigits 8 0 0 cs
        endNumber (.number ⟨value, 0⟩) after
      else decimal
    else decimal
  | _ => decimal

/-! ## Signs -/

/-- Signs of several characters, each before every other that it continues. -/
def longSigns : List (List Char) :=
  ["...", "===", "!==", "**=", "<<=", "&&=", "||=", "??=", "=>", "==", "!=", "++", "--", "+=", "-=", "**", "*=", "/=",
   "%=", "<<", "<=", "&&", "&=", "||", "|=", "^=", "??"].map String.toList

/-- Signs of one character. -/
def shortSigns : List Char :=
  ['\x7b', '\x7d', '(', ')', '[', ']', ';', ',', '<', '>', '=', '!', '+', '-', '*', '/', '%', '&', '|', '^', '~', '?',
   ':', '.', '@', '\x60']

/-- A sign token. A question mark before a point is one sign with it unless a digit follows. -/
def scanSign (cs : List Char) : Token × List Char :=
  match longSigns.find? (·.isPrefixOf cs) with
  | some sign => (.sign (String.ofList sign), cs.drop sign.length)
  | none =>
    match cs with
    | '?' :: '.' :: rest =>
      match rest with
      | c :: _ => if c.isDigit then (.sign "?", '.' :: rest) else (.sign "?.", rest)
      | [] => (.sign "?.", [])
    | c :: rest => if shortSigns.contains c then (.sign (String.ofList [c]), rest) else (.invalid, rest)
    | [] => (.finish, [])

/-! ## Scanning -/

/-- Where a scanner stands between tokens. -/
inductive Gap
  | blank
  | lineComment
  | blockComment

/-- Passes over blanks and comments and tells whether a line ended on the way. -/
def skipGap : Gap → (lineEnded : Bool) → List Char → Bool × List Char
  | .blank, ended, '/' :: '/' :: rest => skipGap .lineComment ended rest
  | .blank, ended, '/' :: '*' :: rest => skipGap .blockComment ended rest
  | .blank, ended, c :: rest => if isBlank c then skipGap .blank (ended || isLineEnd c) rest else (ended, c :: rest)
  | .lineComment, ended, c :: rest =>
    if isLineEnd c then skipGap .blank true rest else skipGap .lineComment ended rest
  | .blockComment, ended, '*' :: '/' :: rest => skipGap .blank ended rest
  | .blockComment, ended, c :: rest => skipGap .blockComment (ended || isLineEnd c) rest
  | _, ended, [] => (ended, [])

/-- The token at the start of a text, and the text after it. -/
def scanToken (cs : List Char) : Token × List Char :=
  match cs with
  | [] => (.finish, [])
  | c :: rest =>
    if isIdentifierStart c || c == '\\' then scanWordToken cs
    else if c.isDigit then scanNumber cs
    else if c == '"' || c == '\x27' then scanTextToken c rest
    else if c == '#' then scanPrivateName rest
    else if c == '.' then
      match rest with
      | d :: _ => if d.isDigit then scanFraction 0 cs else scanSign cs
      | [] => scanSign cs
    else scanSign cs

end InteropBindings.Source
