import InteropBindings.Source.Grammar

/-!
# Types

The grammar of types: conditional types, unions and intersections, operators, arrays, and what they are made of.

- `typeRule` is a type, `plainTypeRule` one that is not conditional;
- `typeArguments`, `typeParams`, `ascription?` and `returnAscription` are the places where types occur;
- `typeElements` is the body of an object type.
-/

namespace InteropBindings.Source

/-! ## Names, arguments and parameters -/

/-- A dotted name. A point without a name after it ends the name. -/
def entityName (g : Grammar) (anyWord : Bool) : Reading EntityName := do
  let first ← name
  repeating g.budget (fun soFar => do
    unless ← takeSign "." do return .inr soFar
    match ← token with
    | .word _ | .privateName _ =>
      let part ← if anyWord then name else identifier
      return .inl (.member soFar part)
    | _ => return .inr soFar) (.name first)

/-- Cuts a double opening bracket in two. -/
def splitBracket : Reading Unit :=
  modify fun c => { c with token := .sign "<", lineBefore := false, here := c.here.drop 1, rest := c.here.drop 2 }

/-- Type arguments in angle brackets. -/
def typeArguments (g : Grammar) : Reading Unit := do
  if ← atSign "<<" then splitBracket else needSign "<"
  let _ ← commaList g.budget (atSign ">") g.type
  needSign ">"

/-- A type parameter with its modifiers, bound and default. -/
def typeParam (g : Grammar) : Reading Unit := do
  skipping g.budget (return (← modifier ["public", "private", "protected", "readonly", "abstract", "const", "override",
    "in", "out"]).isSome) (pure ())
  let _ ← name
  if ← takeWord "extends" then let _ ← g.type
  if ← takeSign "=" then let _ ← g.type

/-- Type parameters in angle brackets. -/
def typeParams (g : Grammar) : Reading Unit := do
  needSign "<"
  let _ ← commaList g.budget (atSign ">") (typeParam g)
  needSign ">"

/-- Type parameters, if there are any. -/
def typeParams? (g : Grammar) : Reading Unit := do
  if (← typed) && (← atSign "<") then typeParams g

/-- A type after a colon, if there is one. -/
def ascription? (g : Grammar) : Reading (Option TypeExpr) := do
  if ← typed <&&> takeSign ":" then return some (← g.type) else return none

/-- The type of a result after its sign: a type, or what is known of a parameter. -/
def returnType (g : Grammar) : Reading TypeExpr := do
  let asserted ← do
    if (← atWord "asserts") && (← following).token.isReference then advance; pure true else pure false
  let next ← following
  let isTest := (← atReference) && next.token == .word "is" && !next.lineBefore
  if asserted || isTest then
    let _ ← name
    if isTest then
      needWord "is"
      let _ ← g.type
    return .other
  else g.type

/-- The type of a result after a given sign. -/
def returnAscription (g : Grammar) (sign : String) : Reading TypeExpr := do
  needSign sign
  returnType g

/-! ## Signatures -/

/-- Whether a parameter may stand in a signature, where nothing has a default. -/
def Pattern.inSignature : Pattern → Bool
  | .withDefault _ | .other => false
  | _ => true

/-- The parameters of a signature in parentheses. -/
def signatureParams (g : Grammar) : Reading Unit := do
  needSign "("
  let params ← g.params
  unless params.all Pattern.inSignature do expected "a parameter without a default"
  needSign ")"

/-- A signature: type parameters, parameters and, after a colon, a result. -/
def signature (g : Grammar) : Reading Unit := do
  typeParams? g
  signatureParams g
  if ← atSign ":" then let _ ← returnAscription g ":"

/-- The end of a member of an object type. -/
def memberEnd : Reading Unit := do
  unless ← takeSign "," do needEnd

/-- An index signature, if there is one. -/
def indexSignature? (g : Grammar) : Reading Bool := do
  let inner ← following
  let sign := inner.next.token
  unless (← atSign "[") && inner.token.isReference && (sign == .sign ":" || sign == .sign ",") do return false
  needSign "["
  let _ ← name
  unless ← takeSign "," do needSign ":"
  let _ ← g.type
  needSign "]"
  let _ ← ascription? g
  memberEnd
  return true

/-- The key of a member of an object type. -/
def memberKey (g : Grammar) : Reading MemberKey := do
  if ← takeSign "[" then
    let key ← g.assignment
    needSign "]"
    match key with
    | .ident n => return .named n
    | _ => return .unnamed
  else match ← token with
    | .text _ | .number _ => let _ ← g.newExpression false; return .unnamed
    | .privateName _ => advance; return .unnamed
    | _ => return .named (← name)

/-- A getter or setter of an object type, if there is one. -/
def accessor? (g : Grammar) : Reading (Option Unit) := attempt do
  if ← takeWord "get" then
    let _ ← memberKey g
    needSign "("
    needSign ")"
    let _ ← ascription? g
    memberEnd
  else
    needWord "set"
    let _ ← memberKey g
    needSign "("
    let params ← g.params
    unless params.all Pattern.inSignature && !params.isEmpty do expected "a parameter"
    needSign ")"
    memberEnd
  return some ()

/-- A member of an object type. -/
def typeElement (g : Grammar) : Reading TypeElement := do
  if (← atSign "(") || (← atSign "<") then
    signature g
    memberEnd
    return .other
  if (← atWord "new") && ((← beforeSign "(") || (← beforeSign "<")) then
    advance
    signature g
    memberEnd
    return .other
  let readonly := (← modifier ["readonly"]).isSome
  if ← indexSignature? g then return .indexSignature
  if !readonly then
    if (← accessor? g).isSome then return .other
  let key ← memberKey g
  let _ ← takeSign "?"
  if (← atSign "(") || (← atSign "<") then
    if readonly then expected "a property"
    signature g
    memberEnd
    return .method key
  else
    let _ ← ascription? g
    memberEnd
    return .property key

/-- The members of an object type in braces. -/
def typeElements (g : Grammar) : Reading (List TypeElement) := do
  needSign "\x7b"
  let members ← gather g.budget (return !(← atSign "\x7d")) (typeElement g)
  needSign "\x7d"
  return members

/-! ## Function types -/

/-- Whether the text from an opening parenthesis on can only be a function type. -/
def startsFunctionType (g : Grammar) : Reading Bool := ahead do
  needSign "("
  if (← atSign ")") || (← atSign "...") then return true
  let _ ← paramModifier
  let started ← do
    if ← atName then advance; pure true
    else if (← atSign "\x7b") || (← atSign "[") then
      pure (← attempt (some <$> g.binding true)).isSome
    else pure false
  unless started do return false
  if (← atSign ":") || (← atSign ",") || (← atSign "?") || (← atSign "=") then return true
  takeSign ")" <&&> atSign "=>"

/-- A function type, or a constructor type after its word. -/
def functionType (g : Grammar) : Reading TypeExpr := do
  typeParams? g
  signatureParams g
  let _ ← returnAscription g "=>"
  return .other

/-! ## Mapped types, tuples and queries -/

/-- Whether the text from an opening brace on is a mapped type. -/
def startsMappedType : Reading Bool := ahead do
  needSign "\x7b"
  if ← takeSign "+" <||> takeSign "-" then atWord "readonly"
  else
    let _ ← takeWord "readonly"
    unless ← takeSign "[" do return false
    unless ← atReference do return false
    advance
    atWord "in"

/-- A mapped type. -/
def mappedType (g : Grammar) : Reading TypeExpr := do
  needSign "\x7b"
  if ← takeSign "+" <||> takeSign "-" then needWord "readonly" else let _ ← takeWord "readonly"
  needSign "["
  let _ ← name
  needWord "in"
  let _ ← g.type
  if ← takeWord "as" then let _ ← g.type
  needSign "]"
  if ← takeSign "+" <||> takeSign "-" then needSign "?" else let _ ← takeSign "?"
  if ← takeSign ":" then let _ ← g.type
  needEnd
  needSign "\x7d"
  return .other

/-- An element of a tuple type; the answer tells whether the element itself is marked as optional and whether it
gathers the rest. -/
def tupleElement (g : Grammar) : Reading (Bool × Bool) := do
  let _ ← attempt do
    let _ ← takeSign "..."
    let _ ← name
    let _ ← takeSign "?"
    needSign ":"
    return some ()
  if ← takeSign "..." then
    let _ ← g.type
    return (false, true)
  let _ ← g.type
  return (← takeSign "?", false)

/-- Whether no required element follows an optional one. -/
def tupleOrdered : (optionalSeen : Bool) → List (Bool × Bool) → Bool
  | _, [] => true
  | seen, (isOptional, isRest) :: rest =>
    if isRest then tupleOrdered seen rest
    else if isOptional then tupleOrdered true rest
    else !seen && tupleOrdered seen rest

/-- A tuple type. -/
def tupleType (g : Grammar) : Reading TypeExpr := do
  needSign "["
  let elements ← commaList g.budget (atSign "]") (tupleElement g)
  needSign "]"
  unless tupleOrdered false elements do expected "an optional element"
  return .other

/-- The attributes of an import type: anything in balanced braces. -/
def importAttributes (g : Grammar) : Reading Unit := do
  let _ ← g.assignment

/-- A type imported from another module. -/
def importType (g : Grammar) : Reading TypeExpr := do
  needWord "import"
  needSign "("
  advance
  if ← takeSign "," <&&> atSign "\x7b" then importAttributes g
  needSign ")"
  if ← takeSign "." then let _ ← entityName g false
  if ← atSign "<" then typeArguments g
  return .other

/-- The type of a value. -/
def typeQuery (g : Grammar) : Reading TypeExpr := do
  needWord "typeof"
  if ← atWord "import" then let _ ← importType g
  else let _ ← entityName g true
  if !(← onNewLine) && (← atSign "<") then typeArguments g
  return .other

/-! ## What types are made of -/

/-- A reference to a named type; its type arguments are dropped. -/
def typeReference (g : Grammar) : Reading TypeExpr := do
  let _ ← paramModifier
  let target ← entityName g true
  if !(← onNewLine) && ((← atSign "<") || (← atSign "<<")) then typeArguments g
  return .reference target

/-- A type that starts with the word `this`. -/
def thisType (g : Grammar) (asserted : Bool) : Reading TypeExpr := do
  needWord "this"
  if asserted || !(← onNewLine) then
    if ← takeWord "is" then let _ ← g.type
  return .other

/-- A type named by a word. -/
def wordType (g : Grammar) (w : String) : Reading TypeExpr := do
  if w == "asserts" && (← beforeWord "this") then
    advance
    thisType g true
  else match Keyword.ofName? w with
    | some k =>
      if ← beforeSign "." then typeReference g
      else
        advance
        return .keyword k
    | none => typeReference g

/-- Reserved words that may name a type all the same. -/
def typeWords : List String := ["void", "yield", "null", "await", "break"]

/-- A type without operators. -/
def primaryType (g : Grammar) : Reading TypeExpr := do
  match ← token with
  | .text _ | .number _ | .bigint _ => advance; return .other
  | .word w =>
    if w == "true" || w == "false" then advance; return .other
    else if w == "import" then importType g
    else if w == "this" then thisType g false
    else if w == "typeof" then typeQuery g
    else if w == "let" || (reservedWords.contains w && !typeWords.contains w) then expected "a type"
    else wordType g w
  | .sign "-" =>
    advance
    match ← token with
    | .number _ | .bigint _ => advance; return .other
    | _ => expected "a number"
  | .sign "\x7b" =>
    if ← startsMappedType then mappedType g else return .literal (← typeElements g)
  | .sign "[" => tupleType g
  | .sign "(" =>
    advance
    let inner ← g.type
    needSign ")"
    return .parenthesized inner
  | .sign "\x60" =>
    template g (do let _ ← g.type)
    return .other
  | _ => expected "a type"

/-- A type followed by brackets on the same line. -/
def arrayType (g : Grammar) : Reading TypeExpr := do
  let element ← primaryType g
  repeating g.budget (fun soFar => do
    unless ← onSameLine <&&> takeSign "[" do return .inr soFar
    if ← takeSign "]" then return .inl (.array soFar)
    let _ ← g.type
    needSign "]"
    return .inl .other) element

/-- A type variable that is found by matching, with its bound. -/
def inferredType (g : Grammar) : Reading TypeExpr := do
  needWord "infer"
  let _ ← name
  let _ ← attempt do
    needWord "extends"
    let _ ← g.plainType
    if (← read).plainTypes || !(← atSign "?") then return some () else return none
  return .other

/-- A type with operators before it. -/
def operatorType (g : Grammar) : Reading TypeExpr := do
  let atOperator : Reading Bool := return (← atWord "keyof") || (← atWord "unique") || (← atWord "readonly")
  let plain := !(← atOperator)
  skipping g.budget atOperator advance
  let inner ← if ← atWord "infer" then inferredType g else arrayType g
  return if plain then inner else .other

/-- Types with a sign between them; the sign may also stand before the first. -/
def separatedTypes (g : Grammar) (sign : String) (part : Reading TypeExpr) : Reading TypeExpr := do
  let _ ← takeSign sign
  let first ← part
  unless ← atSign sign do return first
  skipping g.budget (takeSign sign) (do let _ ← part)
  return .other

/-- A type that is not conditional. -/
def plainTypeRule (g : Grammar) : Reading TypeExpr := do
  if (← atSign "<") then functionType g
  else if ← atSign "(" <&&> startsFunctionType g then functionType g
  else if ← atWord "new" then
    advance
    functionType g
  else if (← atWord "abstract") && (← beforeWord "new") then
    advance
    advance
    functionType g
  else separatedTypes g "|" (separatedTypes g "&" (operatorType g))

/-- A type, which may be conditional. -/
def typeRule (g : Grammar) : Reading TypeExpr := inMode (fun m => { m with plainTypes := false }) do
  let checked ← plainTypeRule g
  unless ← onSameLine <&&> takeWord "extends" do return checked
  let _ ← inMode (fun m => { m with plainTypes := true }) (plainTypeRule g)
  needSign "?"
  let _ ← g.type
  needSign ":"
  let _ ← g.type
  return .other

end InteropBindings.Source
