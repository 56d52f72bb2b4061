import InteropBindings.Source.Patterns

/-!
# Classes

The grammar of classes and of their members. Words such as `get`, `static` or `declare` are modifiers where something
follows that they can modify, and otherwise the name of the member.
-/

namespace InteropBindings.Source

/-- Whether a member goes on as a method here. -/
def atMethod : Reading Bool := do
  return (← atSign "(") || ((← typed) && (← atSign "<"))

/-- Whether a member goes on as a property here; a new line may end it or not. -/
def atProperty (endsWithLine : Bool) : Reading Bool := do
  if (← typed) && ((← atSign "!") || (← atSign ":")) then return true
  if (← atSign "=") || (← atSign "\x7d") then return true
  if endsWithLine then atEnd else atSign ";"

/-- The key of a class member, or nothing for a private name. -/
def classKey (g : Grammar) : Reading (Option PropertyKey) := do
  match ← token with
  | .privateName _ => advance; return none
  | _ => return some (← propertyKey g)

/-- Whether a key names the constructor. -/
def namesConstructor : Option PropertyKey → Bool
  | some (.ident n) => n == "constructor"
  | some (.text s) => s == "constructor"
  | _ => false

/-- A method after its key. -/
def methodTail (g : Grammar) (key : Option PropertyKey) (generator : Bool) : Reading ClassElement := do
  let (callable, _) ← callable g generator
  match key with
  | some key => return .method key callable
  | none => return .other

/-- A property after its key and question mark. Nothing needs to follow it but the next member. -/
def propertyTail (g : Grammar) (key : Option PropertyKey) (readonly isOptional : Bool) : Reading ClassElement := do
  if namesConstructor key then expected "a constructor"
  if (← typed) && !isOptional then let _ ← takeSign "!"
  let ascription ← ascription? g
  let _ ← defaultValue? g
  let _ ← takeEnd
  match key with
  | some key => return .property key ascription readonly
  | none => return .other

/-- A member whose name is a word that could have been a modifier, if it goes on as a method or property. -/
def wordMember? (g : Grammar) (word : String) (endsWithLine : Bool) : Reading (Option ClassElement) := do
  if ← atMethod then return some (← methodTail g (some (.ident word)) false)
  if ← atProperty endsWithLine then return some (← propertyTail g (some (.ident word)) false false)
  return none

/-- A constructor after its key. -/
def constructorTail (g : Grammar) : Reading ClassElement := do
  typeParams? g
  needSign "("
  let _ ← commaList g.budget (atSign ")") (constructorParam g)
  needSign ")"
  let _ ← ascription? g
  let _ ← body? g false
  return .other

/-- A getter or setter after its word. -/
def accessorTail (g : Grammar) : Reading ClassElement := do
  let _ ← classKey g
  let _ ← callable g false
  return .other

/-- A member after its modifiers; `field` marks a property that stands for a getter and a setter. -/
def keyedMember (g : Grammar) (readonly field : Bool) : Reading ClassElement := do
  if ← takeSign "*" then
    let key ← classKey g
    return ← methodTail g key true
  let key ← classKey g
  let isOptional ← if ← typed then takeSign "?" else pure false
  if ← atMethod then
    if readonly then expected "a property"
    if namesConstructor key then constructorTail g else methodTail g key false
  else
    let onNextLine := (← onNewLine) && (← atSign "*")
    let isAccessor := (key == some (.ident "get") || key == some (.ident "set")) && !(← atProperty false) && !onNextLine
    if !isAccessor && (← atProperty true) then
      let member ← propertyTail g key readonly isOptional
      return if field then .other else member
    else if key == some (.ident "async") && !(← onNewLine) then
      let _ ← modifier ["override"]
      let generator ← takeSign "*"
      let key ← classKey g
      if namesConstructor key then expected "a method"
      if ← typed then let _ ← takeSign "?"
      methodTail g key generator
    else if isAccessor then accessorTail g
    else expected "a member"

/-- The modifiers before a key: whether the member is read-only, fixed to the class, or neither of the plain kinds. -/
structure Modifiers where
  readonly : Bool := false
  isStatic : Bool := false
  inherits : Bool := false

/-- The modifiers that may stand before a key in any order. -/
def memberModifiers (g : Grammar) (start : Modifiers) : Reading Modifiers :=
  repeating g.budget (fun soFar => do
    if (← atWord "static") && (← beforeSign "\x7b") then return .inr soFar
    match ← modifier ["abstract", "readonly", "override", "static"] with
    | some "readonly" => return .inl { soFar with readonly := true }
    | some "static" => return .inl { soFar with isStatic := true }
    | some _ => return .inl { soFar with inherits := true }
    | none => return .inr soFar) start

/-- A member of a class. -/
def classElement (g : Grammar) : Reading ClassElement := do
  g.decorators
  let declared ← if ← typed then takeWord "declare" else pure false
  let access ← modifier ["public", "protected", "private", "in", "out"]
  let declared ← if !declared && (← typed) then takeWord "declare" else pure declared
  if declared then
    if let some member ← wordMember? g "declare" true then return member
  let isStatic ← takeWord "static"
  let field ← takeWord "accessor"
  if field then
    if let some member ← wordMember? g "accessor" true then return member
  else if isStatic then
    if let some member ← wordMember? g "static" false then return member
  let modifiers ← memberModifiers g { isStatic := isStatic }
  let field ← if field then pure true else takeWord "accessor"
  if field && modifiers.inherits then
    if let some member ← wordMember? g "accessor" true then return member
  if modifiers.isStatic && (← atSign "\x7b") then
    g.block
    return .other
  let accessible := access == some "public" || access == some "protected" || access == some "private"
  if (← typed) && !modifiers.inherits && !accessible then
    if ← indexSignature? g then return .other
  keyedMember g modifiers.readonly field

/-- The members of a class in braces. -/
def classBody (g : Grammar) : Reading (List ClassElement) := do
  needSign "\x7b"
  let members ← repeating g.budget (fun gathered => do
    if (← atFinish) || (← atSign "\x7d") then return .inr gathered.reverse
    if ← takeSign ";" then return .inl gathered
    return .inl ((← classElement g) :: gathered)) []
  needSign "\x7d"
  return members

/-- The name of a class, which `let` cannot be. -/
def className : Reading String := do
  if ← atWord "let" then expected "a name" else identifier

/-- A class from its word on. Repeated and misplaced clauses are let through. -/
def classTail (g : Grammar) (nameNeeded : Bool) : Reading (Option String × List ClassElement) := do
  needWord "class"
  let name ← do
    if nameNeeded || (← atReference) || ((← typed) && (← atWord "this")) then pure (some (← className)) else pure none
  typeParams? g
  if ← takeWord "extends" then
    g.baseClass
    if ← typed <&&> takeSign "," then g.conformances
  if ← typed <&&> takeWord "implements" then g.conformances
  if ← typed <&&> takeWord "implements" then g.conformances
  if ← typed <&&> takeWord "extends" then g.baseClass
  return (name, ← classBody g)

end InteropBindings.Source
