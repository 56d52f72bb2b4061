import InteropBindings.Source.Statements

/-!
# Items of a file

What a file and a namespace consist of: statements, imports and exports.
-/

namespace InteropBindings.Source

/-! ## Clauses -/

/-- A string literal. -/
def moduleText : Reading Unit := do
  match ← token with
  | .text _ => advance
  | _ => expected "a string"

/-- Import attributes, on the line of what they belong to. -/
def attributes? (g : Grammar) : Reading Unit := do
  if ← onSameLine <&&> (takeWord "with" <||> takeWord "assert") then
    unless ← atSign "\x7b" do expected "\x7b"
    let _ ← objectLiteral g

/-- The module that is imported from. -/
def fromClause (g : Grammar) : Reading Unit := do
  needWord "from"
  moduleText
  attributes? g

/-- A name in a list of imports or exports, which may be a string; the name if it is a word. -/
def listedName : Reading (Option String) := do
  match ← token with
  | .text _ => advance; return none
  | .word w => advance; return some w
  | _ => expected "a name"

/-- What may follow the word `type` in a list: a name that is only used as a type. The answer tells whether the element
is complete. -/
def typeOnlyName (binding : Reading Unit) : Reading Bool := do
  if (← name) == "as" then
    unless ← atName do return true
    let second ← token
    binding
    if second == .word "as" && (← atName) then binding
    return true
  else return false

/-- An element of a list of exports. -/
def exportElement : Reading Unit := do
  let first ← listedName
  let complete ← do
    if (← typed) && first == some "type" && (← atName) then typeOnlyName (do let _ ← name) else pure false
  unless complete do
    if ← takeWord "as" then let _ ← listedName

/-- An element of a list of imports. -/
def importElement : Reading Unit := do
  let first ← listedName
  let complete ← do
    if (← typed) && first == some "type" && (← atName) then typeOnlyName (do let _ ← identifier) else pure false
  unless complete do
    if ← takeWord "as" then let _ ← identifier
    else if first.isNone then expected "as"

/-- A list in braces. -/
def bracedList (g : Grammar) (element : Reading Unit) : Reading Unit := do
  needSign "\x7b"
  let _ ← commaList g.budget (return (← atSign "\x7d") || (← atFinish)) element
  needSign "\x7d"

/-- What an import assignment refers to, after its name. -/
def importAssignment (g : Grammar) : Reading Unit := do
  needSign "="
  if (← atWord "require") && (← beforeSign "(") then
    advance
    needSign "("
    moduleText
    needSign ")"
  else let _ ← entityName g false
  needEnd

/-! ## Imports -/

/-- The rest of an import declaration, after a first name if there is one. -/
def importLists (g : Grammar) : Reading Unit := do
  if ← takeSign "*" then
    needWord "as"
    let _ ← identifier
  else if ← atSign "\x7b" then bracedList g importElement
  fromClause g
  needEnd

/-- An import declaration that starts with a name. -/
def namedImport (g : Grammar) : Reading Unit := do
  let first ← identifier
  let second ← token
  let next := (← following).token
  if first == "type" && (← typed) && (second == .sign "*" || second == .sign "\x7b") then importLists g
  else
    if first == "type" && (← typed) && second.isReference then
      if second != .word "from" || next == .word "from" then let _ ← identifier
      else if next == .sign "=" then let _ ← name
    else if first == "defer" || first == "source" then
      if second.isReference && (second != .word "from" || next == .word "from") then let _ ← identifier
    if (← typed) && (← atSign "=") then importAssignment g
    else if first == "defer" && (← atSign "*") then importLists g
    else
      unless ← atWord "from" do needSign ","
      importLists g

/-- An import declaration, or an expression that starts with the same word. -/
def importItem (g : Grammar) : Reading Item := do
  if (← beforeSign ".") || (← beforeSign "(") then
    let _ ← g.expression
    let _ ← takeEnd
    return .other
  needWord "import"
  if (← typed) && (← atReference) && (← beforeSign "=") then
    let _ ← name
    importAssignment g
    return .other
  match ← token with
  | .text _ =>
    advance
    attributes? g
    let _ ← takeEnd
  | t => if t.isReference then namedImport g else importLists g
  return .other

/-! ## Exports -/

/-- The default export after its words. -/
def defaultExport (g : Grammar) : Reading Item := do
  g.decorators
  if ← typed then
    let next ← following
    if (← atWord "abstract") && next.token == .word "class" && !next.lineBefore then advance
    else if (← atWord "abstract") && next.token == .word "interface" then advance
    if ← takeWord "interface" then return .exportedDefault (.interface (← interfaceTail g))
  let next ← following
  if ← atWord "class" then
    let (name, body) ← classTail g false
    return .exportedDefault (.classDecl name body)
  else if (← atWord "async") && next.token == .word "function" && !next.lineBefore then
    advance
    function
  else if ← atWord "function" then function
  else
    let _ ← g.assignment
    needEnd
    return .other
where
  /-- A function from its word on, whose name may be missing. -/
  function : Reading Item := do
    needWord "function"
    let (name, callable, _) ← functionTail g false
    return .exportedDefault (.function name callable)

/-- A list of exports, or everything that another module exports. -/
def exportLists (g : Grammar) : Reading Item := do
  if ← takeSign "*" then
    if ← takeWord "as" then let _ ← listedName
    fromClause g
    needEnd
  else
    bracedList g exportElement
    if ← atWord "from" then
      fromClause g
      needEnd
    else let _ ← takeEnd
  return .other

/-- A declaration that is exported, or a list of exports. -/
def exportedItem (g : Grammar) : Reading Item := do
  let next ← following
  match ← token with
  | .word "class" => return .exported (← classDeclaration g)
  | .word "function" => return .exported (← functionDeclaration g)
  | .word "var" => return .exported (← variableStatement g)
  | .word "const" =>
    if (← typed) && next.token == .word "enum" then
      advance
      advance
      return .exported (← enumTail g)
    return .exported (← variableStatement g)
  | .word "let" => if ← letDeclares then return .exported (← variableStatement g) else exportLists g
  | .word "async" =>
    if next.token == .word "function" && !next.lineBefore then
      advance
      return .exported (← functionDeclaration g)
    exportLists g
  | _ => exportLists g

/-- An export after its word. -/
def exportTail (g : Grammar) : Reading Item := do
  if ← typed then
    if ← takeWord "declare" then
      if let some d ← ambientDeclaration? g then return .exported d
    if let .word w ← token then
      if let some d ← attempt (wordDeclaration? g w true) then return .exported d
    if ← takeWord "import" then
      if (← atWord "type") && (← following).token.isReference then advance
      let _ ← name
      importAssignment g
      return .other
    if ← takeSign "=" then
      let _ ← g.expression
      needEnd
      return .other
    if ← takeWord "as" then
      needWord "namespace"
      let _ ← identifier
      needEnd
      return .other
    if ← takeWord "type" then return ← exportLists g
  if ← takeWord "default" then defaultExport g
  else
    g.decorators
    exportedItem g

/-! ## Items -/

/-- An item. -/
def item (g : Grammar) : Reading Item := do
  g.decorators
  if ← atWord "import" then importItem g
  else if ← takeWord "export" then exportTail g
  else match ← statementRule g with
    | some d => return .statement d
    | none => return .other

/-- Items up to the end of the file, or to a closing brace. -/
def itemList (g : Grammar) (braced : Bool) : Reading (List Item) :=
  gather g.budget (return !(← atFinish) && !(braced && (← atSign "\x7d"))) (item g)

/-- The items of a namespace in braces. A block that is not closed ends with the file. -/
def itemsRule (g : Grammar) : Reading (List Item) := do
  needSign "\x7b"
  let items ← itemList g true
  let _ ← takeSign "\x7d"
  return items

/-! ## Tying the rules together -/

/-- The rules for text nested at most to a given depth, in a file with lists of at most a given length. -/
def grammarTo (budget : Nat) : (depth : Nat) → Grammar
  | 0 => {
      budget := budget, type := expected "less", plainType := expected "less", binding := fun _ => expected "less",
      params := expected "less", assignment := expected "less", expression := expected "less",
      newExpression := fun _ => expected "less", baseClass := expected "less", conformances := expected "less",
      decorators := expected "less", block := expected "less", statement := expected "less", items := expected "less" }
  | depth + 1 => {
      budget := budget
      type := fun m c => typeRule (grammarTo budget depth) m c
      plainType := fun m c => plainTypeRule (grammarTo budget depth) m c
      binding := fun letAllowed m c => bindingRule (grammarTo budget depth) letAllowed m c
      params := fun m c => paramsRule (grammarTo budget depth) m c
      assignment := fun m c => assignmentRule (grammarTo budget depth) m c
      expression := fun m c => expressionRule (grammarTo budget depth) m c
      newExpression := fun nested m c => newExpressionRule (grammarTo budget depth) nested m c
      baseClass := fun m c => baseClassRule (grammarTo budget depth) m c
      conformances := fun m c => conformancesRule (grammarTo budget depth) m c
      decorators := fun m c => decoratorsRule (grammarTo budget depth) m c
      block := fun m c => blockRule (grammarTo budget depth) m c
      statement := fun m c => innerStatement (grammarTo budget depth) m c
      items := fun m c => itemsRule (grammarTo budget depth) m c }

/-! ## Files -/

/-- The text of a file without a byte order mark and without a first line for the command interpreter. -/
def sourceText (cs : List Char) : List Char :=
  let cs := match cs with
    | c :: rest => if c.toNat == 0xFEFF then rest else cs
    | [] => []
  match cs with
  | '#' :: '!' :: rest => rest.dropWhile fun c => !Text.isLineEnd c
  | _ => cs

/-- The items of a file. -/
def readItems (typed declarationFile : Bool) (text : String) : Except SyntaxError (List Item) :=
  let cs := sourceText text.toList
  let size := cs.length
  let mode : Mode := { typed := typed, declarationFile := declarationFile, ambient := declarationFile }
  match itemList (grammarTo (size + 2) (16 * size + 64)) false mode (Cursor.ofText cs) with
  | .ok items _ => .ok items
  | .error e _ => .error e

end InteropBindings.Source
