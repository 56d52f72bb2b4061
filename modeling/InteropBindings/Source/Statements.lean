import InteropBindings.Source.Expressions

/-!
# Statements and declarations

Statements are checked for their form; a statement that declares something yields the declaration.

- `statementRule` is a statement, `blockRule` a block of them;
- `wordDeclaration?` is a declaration that starts with a word that is not reserved;
- `ambientDeclaration?` is what may follow the word `declare`.
-/

namespace InteropBindings.Source

/-! ## Variables -/

/-- A variable with its ascription and initial value. -/
def declarator (g : Grammar) (kind : String) (inLoop : Bool) : Reading Unit := do
  let bound ← g.binding (kind == "var")
  let isName := match bound with
    | .ident .. => true
    | _ => false
  if (← typed) && isName then let _ ← takeSign "!"
  let _ ← ascription? g
  if inLoop && ((← atWord "in") || (← atWord "of")) then return ()
  if ← takeSign "=" then let _ ← g.assignment
  else if !isName && kind != "const" && !(← read).ambient then expected "an initial value"

/-- Variables after their word. -/
def declarators (g : Grammar) (kind : String) (inLoop : Bool) : Reading Unit :=
  repeating g.budget (fun () => do
    if (← atSign ";") || (← atFinish) then return .inr ()
    declarator g kind inLoop
    if ← takeSign "," then return .inl () else return .inr ()) ()

/-- Passes over text up to the end of a statement. -/
def skipToEnd (g : Grammar) : Reading Unit :=
  repeating g.budget (fun () => do
    if ← takeEnd then return .inr ()
    advance
    if (← token) == .invalid then return .inr () else return .inl ()) ()

/-- A variable statement. What cannot be read at its end is passed over. -/
def variableStatement (g : Grammar) : Reading Declaration := do
  let kind ← name
  declarators g kind false
  unless ← takeEnd do
    recovering do let _ ← g.expression
    skipToEnd g
  return .other

/-- Whether the word `let` starts a variable statement. -/
def letDeclares : Reading Bool := do
  match (← following).token with
  | .word w => return !reservedWords.contains w
  | .sign s => return s == "[" || s == "\x7b"
  | _ => return false

/-! ## Declarations with a name and a body -/

/-- A function from its word on. -/
def functionDeclaration (g : Grammar) : Reading Declaration := do
  needWord "function"
  let (name, callable, _) ← functionTail g true
  return .function (name.getD "") callable

/-- A class from its word on. -/
def classDeclaration (g : Grammar) : Reading Declaration := do
  let (name, body) ← classTail g true
  return .classDecl (name.getD "") body

/-- An interface after its word. Further clauses before the body are passed over. -/
def interfaceTail (g : Grammar) : Reading String := do
  let name ← name
  typeParams? g
  if ← takeWord "extends" then g.conformances
  if ← atWord "extends" then
    skipping g.budget (return !(← atFinish) && !(← atSign "\x7b")) advance
  let _ ← typeElements g
  return name

/-- A type alias after its word. -/
def aliasTail (g : Grammar) : Reading Declaration := do
  let name ← name
  typeParams? g
  needSign "="
  let aliased ← g.type
  needEnd
  return .typeAlias name aliased

/-- A member of an enumeration with its value; without a comma after it, one token is passed over. -/
def enumMember (g : Grammar) : Reading Unit := do
  match ← token with
  | .text _ | .number _ | .bigint _ => advance
  | .sign "[" =>
    advance
    let _ ← g.expression
    needSign "]"
  | _ => let _ ← name
  if ← takeSign "=" then
    let _ ← g.assignment
    let _ ← takeSign ","
  else if ← atSign "\x7d" then return ()
  else advance

/-- An enumeration after its word. -/
def enumTail (g : Grammar) : Reading Declaration := do
  let _ ← name
  needSign "\x7b"
  skipping g.budget (return !(← atSign "\x7d")) (enumMember g)
  needSign "\x7d"
  return .other

/-- A namespace after its word. -/
def namespaceTail (g : Grammar) : Reading Declaration := do
  let first ← name
  let parts ← gather g.budget (takeSign ".") name
  let items ← g.items
  return .namespaceDecl first false (some (parts.foldr NamespaceBody.dotted (.block items)))

/-- A module named by a string, or the global scope. -/
def moduleTail (g : Grammar) : Reading Declaration := do
  let (name, isGlobal) ← match ← token with
    | .text s => advance; pure (s, false)
    | .word "global" => advance; pure ("global", true)
    | _ => expected "a module"
  if ← atSign "\x7b" then return .namespaceDecl name isGlobal (some (.block (← g.items)))
  needEnd
  return .namespaceDecl name isGlobal none

/-! ## Declarations that start with a word that is not reserved -/

/-- A declaration that starts with a word. The word is still the current token when it is `pending`. -/
def wordDeclaration? (g : Grammar) (word : String) (pending : Bool) : Reading (Option Declaration) := do
  let start : Reading Unit := if pending then advance else pure ()
  match word with
  | "abstract" =>
    if pending || ((← atWord "class") && !(← onNewLine)) then
      start
      return some (← classDeclaration g)
    return none
  | "enum" =>
    if pending || (← atReference) then
      start
      return some (← enumTail g)
    return none
  | "interface" =>
    if pending || (← atReference) then
      start
      return some (.interface (← interfaceTail g))
    return none
  | "module" =>
    if ← onNewLine then return none
    start
    match ← token with
    | .text _ => return some (← moduleTail g)
    | _ => if pending || (← atReference) then return some (← namespaceTail g) else return none
  | "namespace" =>
    if pending || (← atReference) then
      start
      return some (← namespaceTail g)
    return none
  | "type" =>
    if pending || (!(← onNewLine) && (← atReference)) then
      start
      return some (← aliasTail g)
    return none
  | _ => return none

/-- A declaration of code elsewhere, after the word `declare`. -/
def ambientDeclaration? (g : Grammar) : Reading (Option Declaration) :=
  inMode (fun m => { m with ambient := true }) do
    match ← token with
    | .word "function" => return some (← functionDeclaration g)
    | .word "class" => return some (← classDeclaration g)
    | .word "const" =>
      if ← beforeWord "enum" then
        advance
        advance
        return some (← enumTail g)
      return some (← variableStatement g)
    | .word "var" => return some (← variableStatement g)
    | .word "let" => return some (← variableStatement g)
    | .word "global" => return some (← moduleTail g)
    | .word w => wordDeclaration? g w true
    | _ => return none

/-! ## Statements -/

/-- An expression in parentheses. -/
def condition (g : Grammar) : Reading Unit := do
  needSign "("
  let _ ← enclosed g.expression
  needSign ")"

/-- The head and body of a loop over values or with a counter, after its word. -/
def loopTail (g : Grammar) : Reading Unit := do
  let _ ← takeWord "await"
  needSign "("
  let declares := (← atWord "var") || (← atWord "const") || ((← atWord "let") && (← letDeclares))
  if declares then
    let kind ← name
    inMode (fun m => { m with inOperator := false }) (declarators g kind true)
  else
    unless ← atSign ";" do
      let _ ← inMode (fun m => { m with inOperator := false }) g.expression
  if ← takeWord "of" then let _ ← g.assignment
  else if ← takeWord "in" then let _ ← g.expression
  else
    needSign ";"
    unless ← atSign ";" do let _ ← g.expression
    needSign ";"
    unless ← atSign ")" do let _ ← g.expression
  needSign ")"
  g.statement

/-- The cases of a choice after its word. -/
def switchTail (g : Grammar) : Reading Unit := do
  condition g
  needSign "\x7b"
  skipping g.budget (return (← atWord "case") || (← atWord "default")) do
    if ← takeWord "case" then let _ ← g.expression else advance
    needSign ":"
    skipping g.budget (return !(← atFinish) && !(← atSign "\x7d") && !(← atWord "case") && !(← atWord "default"))
      g.statement
  needSign "\x7d"

/-- A guarded block after its word. -/
def tryTail (g : Grammar) : Reading Unit := do
  g.block
  if ← takeWord "catch" then
    if ← takeSign "(" then
      let _ ← g.binding true
      let _ ← ascription? g
      needSign ")"
    g.block
  if ← takeWord "finally" then g.block

/-- A statement that consists of an expression, or that starts with a word that is not reserved. -/
def expressionStatement (g : Grammar) : Reading (Option Declaration) := do
  let value ← g.expression
  let finish : Reading (Option Declaration) := do
    needEnd
    return none
  match value with
  | .ident word =>
    if ← takeSign ":" then
      g.statement
      return none
    if word == "interface" && (← onNewLine) then return ← finish
    unless ← typed do return ← finish
    if word == "declare" then
      if let some d ← ambientDeclaration? g then return some d
    else if word == "global" then
      if ← atSign "\x7b" then return some (.namespaceDecl "global" true (some (.block (← g.items))))
    else
      if let some d ← wordDeclaration? g word false then return some d
      if ← pure (["public", "static", "abstract"].contains word) <&&> takeWord "interface" then
        return some (.interface (← interfaceTail g))
    finish
  | _ => finish

/-- A statement that starts with a word. -/
def wordStatement (g : Grammar) (word : String) : Reading (Option Declaration) := do
  let done (rule : Reading Unit) : Reading (Option Declaration) := do
    advance
    rule
    return none
  match word with
  | "function" => return some (← functionDeclaration g)
  | "class" => return some (← classDeclaration g)
  | "var" => return some (← variableStatement g)
  | "const" =>
    if (← typed) && (← beforeWord "enum") then
      advance
      advance
      return some (← enumTail g)
    return some (← variableStatement g)
  | "let" => if ← letDeclares then return some (← variableStatement g) else expressionStatement g
  | "if" => done do
    condition g
    g.statement
    if ← takeWord "else" then g.statement
  | "for" => done (loopTail g)
  | "while" => done do
    condition g
    g.statement
  | "do" => done do
    g.statement
    needWord "while"
    condition g
    let _ ← takeEnd
  | "switch" => done (switchTail g)
  | "try" => done (tryTail g)
  | "with" => done do
    condition g
    g.statement
  | "return" => done do
    unless ← takeEnd do
      let _ ← g.expression
      needEnd
  | "throw" => done do
    if ← onNewLine then expected "an expression"
    let _ ← g.expression
    needEnd
  | "break" => done do
    unless ← takeEnd do
      let _ ← name
      needEnd
  | "continue" => done do
    unless ← takeEnd do
      let _ ← name
      needEnd
  | "debugger" => done needEnd
  | "await" =>
    let _ ← g.expression
    let _ ← takeEnd
    return none
  | "async" =>
    let next ← following
    if next.token == .word "function" && !next.lineBefore then
      advance
      return some (← functionDeclaration g)
    expressionStatement g
  | "using" =>
    let next ← following
    if next.token.isReference && !next.lineBefore then
      advance
      declarators g "var" false
      needEnd
      return none
    expressionStatement g
  | _ =>
    let next ← following
    if (← typed) && next.token.isReference && !next.lineBefore then
      match word with
      | "type" => advance; return some (← aliasTail g)
      | "interface" => advance; return some (.interface (← interfaceTail g))
      | "enum" => advance; return some (← enumTail g)
      | _ => expressionStatement g
    else expressionStatement g

/-- A statement, with the declaration that it makes. -/
def statementRule (g : Grammar) : Reading (Option Declaration) := do
  g.decorators
  match ← token with
  | .sign "\x7b" => g.block; return none
  | .sign ";" => advance; return none
  | .word w => wordStatement g w
  | _ => expressionStatement g

/-- A statement where files cannot be imported or exported. -/
def innerStatement (g : Grammar) : Reading Unit := do
  if ← atWord "export" then expected "a statement"
  if (← atWord "import") && !((← beforeSign "(") || (← beforeSign ".")) then expected "a statement"
  let _ ← statementRule g

/-- A block of statements. A block that is not closed ends with the file. -/
def blockRule (g : Grammar) : Reading Unit := do
  needSign "\x7b"
  skipping g.budget (return !(← atSign "\x7d") && !(← atFinish)) (innerStatement g)
  let _ ← takeSign "\x7d"

end InteropBindings.Source
