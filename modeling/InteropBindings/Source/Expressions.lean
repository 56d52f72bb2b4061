import InteropBindings.Source.Classes

/-!
# Expressions

Expressions occur as defaults, initial values, decorators and computed keys. They are checked for their form; what is
kept is whether they are a name, a string, or an access by name to one of these.

- `assignmentRule` is an expression without a comma, `expressionRule` one that may have commas;
- `newExpressionRule` is an operand with accesses, `leftHand` one with calls too.
-/

namespace InteropBindings.Source

/-- An operand, and whether something can be assigned to it. -/
structure Operand where
  value : Expr
  assignable : Bool

/-- Reads what is enclosed in brackets of some kind. -/
def enclosed {α : Type} (rule : Reading α) : Reading α :=
  inMode (fun m => { m with inOperator := true, colonAhead := false }) rule

/-! ## Literals -/

/-- The text after a regular expression, from behind its opening slash on. -/
def scanRegex : (inClass : Bool) → List Char → Option (List Char)
  | inClass, '\\' :: c :: rest => if Text.isLineEnd c then none else scanRegex inClass rest
  | inClass, c :: rest =>
    if Text.isLineEnd c then none
    else if c == '[' then scanRegex true rest
    else if c == ']' then scanRegex false rest
    else if c == '/' && !inClass then some rest
    else scanRegex inClass rest
  | _, [] => none

/-- A regular expression with its flags. -/
def regex : Reading Expr := do
  match scanRegex false ((← get).here.drop 1) with
  | some rest =>
    set (Cursor.ofText (rest.dropWhile Text.isIdentifierPart))
    return .other
  | none => expected "a closed regular expression"

/-- An element of an array or an argument, which may be spread. -/
def spreadElement (g : Grammar) : Reading Unit := do
  let _ ← takeSign "..."
  let _ ← g.assignment

/-- An array literal, which may have holes. -/
def arrayLiteral (g : Grammar) : Reading Expr := enclosed do
  needSign "["
  skipping g.budget (return !(← atSign "]") && !(← atFinish)) do
    unless ← takeSign "," do
      spreadElement g
      unless ← atSign "]" do needSign ","
  needSign "]"
  return .other

/-- Whether a property of an object may go on with a token after its key. -/
def Token.followsKey : Token → Bool
  | .word _ | .text _ | .number _ | .bigint _ => true
  | .sign s => ["(", "[", ":", ",", "?", "=", "*", "<"].contains s
  | _ => false

/-- A property of an object literal. -/
def objectProperty (g : Grammar) : Reading Unit := do
  if ← takeSign "..." then let _ ← g.assignment
  else if ← takeSign "*" then
    let _ ← propertyKey g
    let _ ← callable g true
  else
    let _ ← paramModifier
    let key ← propertyKey g
    let isWord := match key with
      | .ident _ => true
      | _ => false
    if (← typed) && !(← token).followsKey && !((← atSign "\x7d") && isWord) then return ()
    if ← takeSign ":" then let _ ← g.assignment
    else if (← atSign "(") || ((← typed) && (← atSign "<")) then let _ ← callable g false
    else match key with
      | .ident word =>
        let _ ← takeSign "?"
        if ← takeSign "=" then let _ ← g.assignment
        else if (← atSign ",") || (← atSign "\x7d") then return ()
        else if word == "get" || word == "set" || word == "async" then
          let generator ← if word == "async" then takeSign "*" else pure false
          let _ ← propertyKey g
          let _ ← callable g generator
        else expected "a property"
      | _ => expected "a property"

/-- An object literal. -/
def objectLiteral (g : Grammar) : Reading Expr := enclosed do
  needSign "\x7b"
  repeating g.budget (fun () => do
    if ← takeSign "\x7d" then return .inr ()
    objectProperty g
    unless ← atSign "\x7d" do needSign ","
    return .inl ()) ()
  return .other

/-- Arguments in parentheses. -/
def arguments (g : Grammar) : Reading Unit := enclosed do
  needSign "("
  let _ ← commaList g.budget (return (← atSign ")") || (← atFinish)) (spreadElement g)
  needSign ")"

/-- A template with expressions in its holes. -/
def templateLiteral (g : Grammar) : Reading Expr := enclosed do
  template g (do let _ ← g.expression)
  return .other

/-! ## Operands -/

/-- An operand without accesses. -/
def primary (g : Grammar) : Reading Expr := do
  match ← token with
  | .text s => advance; return .text s
  | .number _ | .bigint _ | .privateName _ => advance; return .other
  | .word w =>
    if ["this", "null", "true", "false"].contains w then advance; return .other
    else if w == "function" || (w == "async" && (← beforeWord "function") && !(← following).lineBefore) then
      let _ ← takeWord "async"
      advance
      let (_, _, hasBody) ← functionTail g false
      unless hasBody do expected "a body"
      return .other
    else if w == "class" then
      let _ ← classTail g false
      return .other
    else return .ident (← identifier)
  | .sign "[" => arrayLiteral g
  | .sign "\x7b" => objectLiteral g
  | .sign "(" =>
    advance
    let _ ← enclosed g.expression
    needSign ")"
    return .other
  | .sign "\x60" => templateLiteral g
  | .sign "/" => regex
  | .sign "/=" => regex
  | .sign "@" =>
    g.decorators
    let _ ← classTail g false
    return .other
  | _ => expected "an expression"

/-- Words with which an expression may start although they are no names. -/
def expressionWords : List String :=
  ["this", "super", "null", "true", "false", "function", "class", "new", "delete", "typeof", "void", "await", "yield",
   "import", "let"]

/-- Whether an expression may start with a token. -/
def Token.startsExpression : Token → Bool
  | .word w => expressionWords.contains w || !isReserved w
  | .text _ | .number _ | .bigint _ | .privateName _ => true
  | .sign s => ["`", "(", "[", "\x7b", "/", "/=", "+", "-", "~", "!", "++", "--", "<", "@"].contains s
  | _ => false

/-- Signs with an operand on either side. -/
def binarySigns : List String :=
  ["==", "===", "!=", "!==", "<", "<=", "<<", ">", "+", "-", "*", "/", "%", "&", "|", "^", "&&", "||", "??", "**"]

/-- Whether a token is a sign with an operand on either side. -/
def Token.isBinary : Token → Bool
  | .sign s => binarySigns.contains s
  | _ => false

/-- Type arguments of an operand that is not called. -/
def instantiation? (g : Grammar) : Reading Bool := do
  unless (← typed) && (← atSign "<") do return false
  let found ← attempt do
    typeArguments g
    let t ← token
    if [Token.sign "<", .sign ">", .sign "+", .sign "-", .sign "`", .sign "("].contains t then return none
    if (← onNewLine) || t.isBinary || !t.startsExpression then return some () else return none
  return found.isSome

/-- An access by name after a point. -/
def namedAccess (object : Expr) : Reading Expr := do
  match ← token with
  | .privateName _ => advance; return .other
  | _ => return .member object (← name)

/-- What an attempt to read type arguments after an operand has found. -/
inductive TypeApplication
  | goesOn
  | ends

/-- Type arguments of an operand that is called or tagged. -/
def typeApplication? (g : Grammar) (calls : Bool) : Reading (Option TypeApplication) := do
  unless (← typed) && (← atSign "<") do return none
  attempt do
    typeArguments g
    if calls && (← atSign "(") then
      arguments g
      return some .goesOn
    else if ← atSign "`" then
      let _ ← templateLiteral g
      return some .goesOn
    else if (← atSign "=") || (← atWord "as") || (← atWord "satisfies") then return some .ends
    else return none

/-- The accesses after an operand, with or without calls and computed names. -/
def accesses (g : Grammar) (calls computed : Bool) (start : Expr) : Reading Expr :=
  repeating g.budget (fun object => do
    if ← typed <&&> onSameLine <&&> takeSign "!" then return .inl .other
    match ← typeApplication? g calls with
    | some .goesOn => return .inl .other
    | some .ends => return .inr .other
    | none =>
      let chained ← takeSign "?."
      if ← pure computed <&&> takeSign "[" then
        let _ ← enclosed g.expression
        needSign "]"
        return .inl .other
      else if (chained || calls) && (← atSign "(") then
        arguments g
        return .inl .other
      else if chained then
        let _ ← namedAccess object
        return .inl .other
      else if ← takeSign "." then return .inl (← namedAccess object)
      else if ← atSign "`" then
        let _ ← templateLiteral g
        return .inl .other
      else return .inr object) start

/-- What follows the word `super`. -/
def afterSuper : Reading Unit := do
  unless (← atSign ".") || (← atSign "[") || (← atSign "(") do expected "an access"

/-- What follows the word `import` in an expression: arguments, or a property of the module. -/
def afterImport (g : Grammar) : Reading Unit := do
  if ← takeSign "." then let _ ← name
  unless ← atSign "(" do return ()
  arguments g

/-- An operand with accesses but no calls, apart from those of `new`. -/
def newExpressionRule (g : Grammar) (nested : Bool) : Reading Expr := do
  if ← takeWord "new" then
    if ← takeSign "." then
      needWord "target"
      accesses g false true .other
    else
      let _ ← g.newExpression true
      if (← typed) && ((← atSign "<") || (← atSign "<<")) then
        let _ ← attempt do
          typeArguments g
          if ← atSign "(" then return some () else return none
      if ← atSign "(" then
        arguments g
        accesses g false true .other
      else if nested then return .other
      else accesses g false true .other
  else if ← takeWord "super" then
    afterSuper
    accesses g false true .other
  else if ← takeWord "import" then
    afterImport g
    accesses g false true .other
  else
    let object ← primary g
    let object ← if ← instantiation? g then pure .other else pure object
    accesses g false true object

/-- An operand with accesses and calls. -/
def leftHand (g : Grammar) : Reading Expr := do
  if ← takeWord "super" then
    afterSuper
    accesses g true true .other
  else
    let callee ← newExpressionRule g false
    if (← typed) && ((← atSign "<") || (← atSign "<<")) then
      let _ ← attempt do
        typeArguments g
        if ← atSign "(" then return some () else return none
    if ← atSign "(" then
      arguments g
      accesses g true true .other
    else return callee

/-! ## Operators -/

/-- Takes over from a rule that fails, where it failed. -/
def recovering (rule : Reading Unit) : Reading Unit := fun mode start =>
  match rule mode start with
  | .ok () c => .ok () c
  | .error _ c => .ok () c

/-- Operators before an operand. -/
def unaryWords : List String := ["delete", "void", "typeof"]

/-- Signs before an operand. -/
def unarySigns : List String := ["+", "-", "~", "!"]

/-- An operand with operators before and after it, at most `depth` of them. -/
def unary (g : Grammar) : (depth : Nat) → Reading Operand
  | 0 => expected "less"
  | depth + 1 => do
    match ← token with
    | .sign "<" =>
      unless ← typed do expected "an expression"
      advance
      unless ← takeWord "const" do let _ ← g.type
      needSign ">"
      let _ ← unary g depth
      return ⟨.other, true⟩
    | .sign s =>
      if s == "++" || s == "--" then
        advance
        let _ ← unary g depth
        return ⟨.other, false⟩
      else if unarySigns.contains s then
        advance
        recovering do let _ ← unary g depth
        return ⟨.other, false⟩
      else postfixed
    | .word w =>
      if unaryWords.contains w then
        advance
        recovering do let _ ← unary g depth
        return ⟨.other, false⟩
      else if w == "await" then
        advance
        let _ ← unary g depth
        return ⟨.other, true⟩
      else postfixed
    | _ => postfixed
where
  /-- An operand that may be followed by an increment. -/
  postfixed : Reading Operand := do
    let operand ← leftHand g
    if ← onSameLine <&&> (takeSign "++" <||> takeSign "--") then return ⟨.other, false⟩
    return ⟨operand, true⟩

/-- The text after an operator that starts with a closing bracket, and whether it assigns. -/
def angleOperator : List Char → Bool × List Char
  | '>' :: '>' :: '=' :: rest => (true, rest)
  | '>' :: '=' :: rest => (true, rest)
  | '>' :: '>' :: rest => (false, rest)
  | '>' :: rest => (false, rest)
  | '=' :: rest => (false, rest)
  | rest => (false, rest)

/-- Moves past an operator between operands, if there is one. -/
def takeBinary : Reading Bool := do
  match ← token with
  | .sign ">" =>
    match angleOperator (← get).rest with
    | (false, rest) => set (Cursor.ofText rest); return true
    | (true, _) => return false
  | .sign s => if binarySigns.contains s then advance; return true else return false
  | .word "instanceof" => advance; return true
  | .word "in" => if (← read).inOperator then advance; return true else return false
  | _ => return false

/-- Operands with operators between them, from the first operand on. -/
def binaryTail (g : Grammar) (first : Operand) : Reading Operand :=
  repeating g.budget (fun left => do
    if (← typed) && !(← onNewLine) && ((← atWord "as") || (← atWord "satisfies")) then
      let isAs ← atWord "as"
      advance
      if isAs && (← atWord "const") then advance else let _ ← g.type
      return .inl ⟨.other, true⟩
    else if ← takeBinary then
      let _ ← unary g g.budget
      return .inl ⟨.other, false⟩
    else return .inr left) first

/-- Whether an operator stands where its first operand is missing. -/
def operandMissing : Reading Bool := do
  match ← token with
  | .sign s => return binarySigns.contains s && !(["+", "-", "<", "/"].contains s)
  | .word w => return w == "in" || w == "instanceof"
  | _ => return false

/-- Operands with operators between them. -/
def binary (g : Grammar) : Reading Operand := do
  let first ← if ← operandMissing then pure ⟨.other, false⟩ else unary g g.budget
  binaryTail g first

/-- A conditional expression. -/
def conditional (g : Grammar) : Reading Operand := do
  let test ← binary g
  unless ← takeSign "?" do return test
  let _ ← inMode (fun m => { m with inOperator := true, colonAhead := true }) g.assignment
  needSign ":"
  let _ ← inMode (fun m => { m with colonAhead := false }) g.assignment
  return ⟨.other, false⟩

/-! ## Arrow functions -/

/-- The body of an arrow function. -/
def arrowBody (g : Grammar) : Reading Expr := do
  if ← atSign "\x7b" then
    inMode (fun m => { m with generator := false, inOperator := true, colonAhead := false }) g.block
  else
    let _ ← inMode (fun m => { m with generator := false }) g.assignment
  return .other

/-- Parameters in parentheses, a result type and an arrow. -/
def arrowHead? (g : Grammar) : Reading (Option Unit) := attempt do
  needSign "("
  let _ ← g.params
  needSign ")"
  if (← typed) && !(← read).colonAhead && (← atSign ":") then
    let _ ← returnAscription g ":"
  if ← onSameLine <&&> takeSign "=>" then return some () else return none

/-- An arrow function, if the text is one. -/
def arrow? (g : Grammar) : Reading (Option Expr) := do
  match ← token with
  | .sign "(" =>
    if (← arrowHead? g).isSome then return some (← arrowBody g) else return none
  | .sign "<" =>
    unless (← typed) && (← following).token.isName do return none
    let head ← attempt do
      typeParams g
      if ← atName then
        let _ ← identifier
        needSign "=>"
        return some ()
      else arrowHead? g
    if head.isSome then return some (← arrowBody g) else return none
  | .word w =>
    let next ← following
    if w == "async" && !next.lineBefore &&
      (next.token == .sign "(" || next.token == .sign "<" || next.token.isReference) then
      let head ← attempt do
        advance
        if ← atSign "<" then typeParams? g
        if ← atName then
          let _ ← identifier
          needSign "=>"
          return some ()
        else arrowHead? g
      if head.isSome then return some (← arrowBody g) else return none
    else if next.token == .sign "=>" && !next.lineBefore && !reservedWords.contains w then
      let _ ← identifier
      advance
      return some (← arrowBody g)
    else return none
  | _ => return none

/-! ## Assignments -/

/-- Signs that assign. -/
def assignmentSigns : List String :=
  ["=", "+=", "-=", "*=", "/=", "%=", "<<=", "&=", "|=", "^=", "&&=", "||=", "??=", "**="]

/-- Moves past an operator that assigns, if there is one. -/
def takeAssignment : Reading Bool := do
  match ← token with
  | .sign ">" =>
    match angleOperator (← get).rest with
    | (true, rest) => set (Cursor.ofText rest); return true
    | (false, _) => return false
  | .sign s => if assignmentSigns.contains s then advance; return true else return false
  | _ => return false

/-- What a generator hands out. -/
def yieldExpression (g : Grammar) : Reading Expr := do
  needWord "yield"
  let star ← if ← onNewLine then pure false else takeSign "*"
  let t ← token
  if star || (!(← onNewLine) && t.startsExpression) then let _ ← g.assignment
  return .other

/-- An expression without a comma. -/
def assignmentRule (g : Grammar) : Reading Expr := do
  if let some arrow ← arrow? g then return arrow
  if (← read).generator && (← atWord "yield") then return ← yieldExpression g
  let target ← conditional g
  if ← pure target.assignable <&&> takeAssignment then
    let _ ← g.assignment
    return .other
  return target.value

/-- An expression, which may have commas. -/
def expressionRule (g : Grammar) : Reading Expr := do
  let first ← assignmentRule g
  unless ← atSign "," do return first
  skipping g.budget (takeSign ",") (do let _ ← g.assignment)
  return .other

/-! ## Clauses of classes -/

/-- The class that another one extends, with its type arguments. -/
def baseClassRule (g : Grammar) : Reading Unit := do
  let _ ← leftHand g
  if (← typed) && (← atSign "<") then typeArguments g

/-- The types that a class or interface is said to conform to. -/
def conformancesRule (g : Grammar) : Reading Unit := do
  let closed : Reading Bool := return (← atSign "\x7b") || (← atWord "implements") || (← atWord "extends")
  let _ ← commaList g.budget closed do
    let start ← name
    let _ ← accesses g false false (.ident start)
    if ← atSign "<" then typeArguments g

/-- A decorator. -/
def decorator (g : Grammar) : Reading Unit := do
  needSign "@"
  if ← takeSign "(" then
    let _ ← enclosed g.expression
    needSign ")"
  else
    let start ← identifier
    let _ ← accesses g true false (.ident start)
  if ← atSign "(" then arguments g

/-- Any number of decorators. -/
def decoratorsRule (g : Grammar) : Reading Unit := skipping g.budget (atSign "@") (decorator g)

end InteropBindings.Source
