import InteropBindings.Source.Types

/-!
# Patterns, parameters and callables

What is bound by parameters and variables, and what follows the name of a function: type parameters, parameters, the
type of the result and a body, which declarations leave out.
-/

namespace InteropBindings.Source

/-! ## Keys -/

/-- The key of a property of a class, an object or a pattern. -/
def propertyKey (g : Grammar) : Reading PropertyKey := do
  match ← token with
  | .word w => advance; return .ident w
  | .text s => advance; return .text s
  | .number x => advance; return .number x
  | .bigint n => advance; return .bigint n
  | .sign "[" =>
    advance
    let key ← inMode (fun m => { m with inOperator := true, colonAhead := false }) g.assignment
    let listed ← gather g.budget (typed <&&> takeSign ",") g.assignment
    needSign "]"
    return .computed (if listed.isEmpty then key else .other)
  | _ => expected "a key"

/-! ## Patterns -/

/-- A default value after an equals sign, if there is one. -/
def defaultValue? (g : Grammar) : Reading Bool := do
  unless ← takeSign "=" do return false
  let _ ← inMode (fun m => { m with inOperator := true, colonAhead := false }) g.assignment
  return true

/-- A question mark after a destructuring pattern, which declarations allow. -/
def patternMark : Reading Bool := do
  let m ← read
  if m.declarationFile || m.ambient then takeSign "?" else return false

/-- A pattern that may have a default. -/
def patternElement (g : Grammar) : Reading Unit := do
  let _ ← g.binding true
  let _ ← defaultValue? g

/-- An array pattern. -/
def arrayPattern (g : Grammar) : Reading Pattern := do
  needSign "["
  skipping g.budget (return !(← atSign "]") && !(← atFinish)) do
    unless ← takeSign "," do
      if ← takeSign "..." then let _ ← g.binding true else patternElement g
      unless ← atSign "]" do needSign ","
  needSign "]"
  return .array none (← patternMark)

/-- A property of an object pattern; the answer tells whether it gathers the rest into another pattern. -/
def propertyPattern (g : Grammar) : Reading Bool := do
  if ← takeSign "..." then
    match ← g.binding true with
    | .ident .. => return false
    | _ => return true
  let key ← propertyKey g
  if ← takeSign ":" then patternElement g
  else match key with
    | .ident _ => let _ ← defaultValue? g
    | _ => expected "a name"
  return false

/-- An object pattern. -/
def objectPattern (g : Grammar) : Reading Pattern := do
  needSign "\x7b"
  let nested ← repeating g.budget (fun nested => do
    if ← takeSign "\x7d" then return .inr nested
    let nested ← propertyPattern g
    unless ← atSign "\x7d" do needSign ","
    return .inl nested) false
  if nested then expected "a name"
  return .object none (← patternMark)

/-- A pattern without ascription: a name, an array pattern or an object pattern. -/
def bindingRule (g : Grammar) (letAllowed : Bool) : Reading Pattern := do
  if ← atSign "[" then arrayPattern g
  else if ← atSign "\x7b" then objectPattern g
  else
    if !letAllowed && (← atWord "let") then expected "a name"
    return .ident (← identifier) none false

/-! ## Parameters -/

/-- Marks a pattern as optional. -/
def Pattern.asOptional : Pattern → Pattern
  | .ident n t _ => .ident n t true
  | .array t _ => .array t true
  | .object t _ => .object t true
  | p => p

/-- Annotates a pattern with a type. -/
def Pattern.annotated (ascription : Option TypeExpr) : Pattern → Pattern
  | .ident n _ o => .ident n ascription o
  | .array _ o => .array ascription o
  | .object _ o => .object ascription o
  | p => p

/-- A parameter that does not gather the rest. -/
def plainParam (g : Grammar) : Reading Pattern := do
  let _ ← paramModifier
  let bound ← g.binding true
  let bound ← if ← typed <&&> takeSign "?" then pure bound.asOptional else pure bound
  let bound ← if ← typed then pure (bound.annotated (← ascription? g)) else pure bound
  return if ← defaultValue? g then .withDefault bound else bound

/-- A parameter. -/
def param (g : Grammar) : Reading Pattern := do
  g.decorators
  if ← takeSign "..." then
    let bound ← g.binding true
    let bound ← if ← defaultValue? g then pure (.withDefault bound) else pure bound
    let ascription ← ascription? g
    if ← typed then let _ ← takeSign "?"
    return .rest bound ascription
  else plainParam g

/-- Parameters up to their closing parenthesis. -/
def paramsRule (g : Grammar) : Reading (List Pattern) :=
  inMode (fun m => { m with inOperator := true, colonAhead := false }) (commaList g.budget (atSign ")") (param g))

/-- A parameter of a constructor, which may declare a property. -/
def constructorParam (g : Grammar) : Reading Unit := do
  g.decorators
  if ← takeSign "..." then
    let _ ← g.binding true
    let _ ← ascription? g
  else
    let declares := (← modifier ["public", "protected", "private", "in", "out"]).isSome
    let declares := (← modifier ["override"]).isSome || declares
    let declares := (← modifier ["readonly"]).isSome || declares
    match ← plainParam g with
    | .array .. | .object .. => if declares then expected "a name"
    | _ => pure ()

/-! ## Callables -/

/-- The body of a function, which may be left out where types are part of the language. -/
def body? (g : Grammar) (generator : Bool) : Reading Bool := do
  if (← typed) && !(← atSign "\x7b") then
    if ← takeEnd then return false
  inMode (fun m => { m with generator := generator, inOperator := true, colonAhead := false }) g.block
  return true

/-- What follows the name of a function or method, and whether there is a body. -/
def callable (g : Grammar) (generator : Bool) : Reading (Callable × Bool) := do
  typeParams? g
  needSign "("
  let params ← g.params
  needSign ")"
  let returns ← do
    if (← typed) && (← atSign ":") then pure (some (← returnAscription g ":")) else pure none
  return (⟨params, returns⟩, ← body? g generator)

/-- A function after its word. -/
def functionTail (g : Grammar) (nameNeeded : Bool) : Reading (Option String × Callable × Bool) := do
  let generator ← takeSign "*"
  let name ← do
    if nameNeeded || (← atReference) || ((← typed) && (← atWord "this")) then pure (some (← identifier)) else pure none
  let (callable, hasBody) ← callable g generator
  return (name, callable, hasBody)

end InteropBindings.Source
