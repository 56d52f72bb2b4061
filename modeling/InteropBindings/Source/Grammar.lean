import InteropBindings.Source.Reading
import InteropBindings.Source.Tree

/-!
# The rules that refer to each other

Types, patterns, expressions and statements contain each other. A `Grammar` holds the rules by which one part of the
grammar reaches another; each part is written over a given grammar, and the parts are tied together at the end, one
level of nesting at a time.
-/

namespace InteropBindings.Source

/-- The rules for what is nested. -/
structure Grammar where
  /-- No list of the file is longer. -/
  budget : Nat
  /-- A type. -/
  type : Reading TypeExpr
  /-- A type that is not conditional. -/
  plainType : Reading TypeExpr
  /-- A pattern without ascription; the word `let` is a name where allowed. -/
  binding : (letAllowed : Bool) → Reading Pattern
  /-- Parameters up to their closing parenthesis. -/
  params : Reading (List Pattern)
  /-- An expression without a comma. -/
  assignment : Reading Expr
  /-- An expression. -/
  expression : Reading Expr
  /-- An operand with its accesses, but no calls; it may itself follow the word `new`. -/
  newExpression : (nested : Bool) → Reading Expr
  /-- The class that another one extends. -/
  baseClass : Reading Unit
  /-- The types that a class or interface is said to conform to. -/
  conformances : Reading Unit
  /-- Any number of decorators. -/
  decorators : Reading Unit
  /-- A block of statements. -/
  block : Reading Unit
  /-- A statement inside another one. -/
  statement : Reading Unit
  /-- The items of a namespace in braces. -/
  items : Reading (List Item)

/-! ## Modifiers -/

/-- Whether a modifier may stand before a token. -/
def Token.followsModifier : Token → Bool
  | .word _ | .privateName _ | .text _ | .number _ | .bigint _ => true
  | .sign s => s == "[" || s == "\x7b" || s == "*" || s == "..."
  | _ => false

/-- One of the given modifiers, if it stands before what it could modify on the same line. -/
def modifier (allowed : List String) : Reading (Option String) := do
  unless ← typed do return none
  match ← token with
  | .word w =>
    let next ← following
    if allowed.contains w && !next.lineBefore && next.token.followsModifier then
      advance
      return some w
    else return none
  | _ => return none

/-- A modifier of a parameter, if there is one. -/
def paramModifier : Reading Bool := do
  unless ← typed do return false
  match ← token with
  | .word w =>
    let next := (← following).token
    if ["public", "protected", "private", "readonly"].contains w
        && (next.isName || next == .sign "\x7b" || next == .sign "[") then
      let _ ← modifier [w]
      return true
    else return false
  | _ => return false

/-! ## Templates -/

/-- The text of a template up to its end, which is marked, or to the next hole. -/
def scanTemplate : List Char → Option (Bool × List Char)
  | '\\' :: _ :: rest => scanTemplate rest
  | '\x60' :: rest => some (true, rest)
  | '$' :: '\x7b' :: rest => some (false, rest)
  | _ :: rest => scanTemplate rest
  | [] => none

/-- A template, from its opening backquote on, with a rule for its holes. -/
def template (g : Grammar) (hole : Reading Unit) : Reading Unit :=
  repeating g.budget (fun () => do
    match scanTemplate (← get).rest with
    | some (true, rest) => set (Cursor.ofText rest); return .inr ()
    | some (false, rest) =>
      set (Cursor.ofText rest)
      hole
      unless ← atSign "\x7d" do expected "\x7d"
      return .inl ()
    | none => expected "a closed template") ()

end InteropBindings.Source
