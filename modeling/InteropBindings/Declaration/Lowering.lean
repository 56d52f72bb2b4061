import InteropBindings.Declaration.Tree
import InteropBindings.Number.Numeral
import InteropBindings.Source.Tree

/-!
# Declarations in syntax trees

What a syntax tree declares. Exports and ambient marks are looked through, and whatever has no binding is left out.

- `TypeNode.ofExpr` reads a type, `Param.ofPattern` a parameter, `Item.ofItems` the items of a file or namespace;
- a namespace with a dotted name declares namespaces inside each other (`Item.ofBody_dotted`).
-/

namespace InteropBindings

/-- The text of a dotted name. -/
def Source.EntityName.text : Source.EntityName → String
  | .name part => part
  | .member qualifier part => qualifier.text ++ "." ++ part

/-- The name of an expression: a name, a string, or an access by name to something that has a name. -/
def Source.Expr.name? : Source.Expr → Option String
  | .ident name => some name
  | .text value => some value
  | .member object name => object.name?.map fun n => n ++ "." ++ name
  | .other => none

/-- The text of a key. A number is written as the double that it denotes. -/
def Source.PropertyKey.name : Source.PropertyKey → String
  | .ident name => name
  | .text value => value
  | .number value => String.ofList value.text
  | .bigint value => Number.numeral value
  | .computed key => "[" ++ key.name?.getD "computed" ++ "]"

/-- A member of an object type. Only plain names are kept. -/
def TypeMember.ofElement : Source.TypeElement → TypeMember
  | .indexSignature => .indexSignature
  | .property (.named name) => .property name
  | .method (.named name) => .method name
  | _ => .other

/-- A type. Parentheses vanish. -/
def TypeNode.ofExpr : Source.TypeExpr → TypeNode
  | .keyword k => .keyword k
  | .reference name => .reference name.text
  | .array element => .array (ofExpr element)
  | .literal members => .literal (members.map TypeMember.ofElement)
  | .parenthesized inner => ofExpr inner
  | .other => .other

/-- A parameter. A default value makes it optional, and a type given for the rest of the arguments goes before one given
inside. -/
def Param.ofPattern : Source.Pattern → Param
  | .ident name ascription isOptional => ⟨name, ascription.map TypeNode.ofExpr, isOptional⟩
  | .rest argument ascription =>
    match ascription with
    | some t => { ofPattern argument with type := some (TypeNode.ofExpr t) }
    | none => ofPattern argument
  | .withDefault target => { ofPattern target with isOptional := true }
  | .array ascription isOptional => ⟨"destructured", ascription.map TypeNode.ofExpr, isOptional⟩
  | .object ascription isOptional => ⟨"destructured", ascription.map TypeNode.ofExpr, isOptional⟩
  | .other => ⟨"unknown", none, false⟩

/-- A member of a class, if it has a binding. -/
def Member.ofElement? : Source.ClassElement → Option Member
  | .method key callable =>
    some (.method key.name (callable.params.map Param.ofPattern) (callable.returns.map TypeNode.ofExpr))
  | .property key ascription readonly => some (.property key.name (ascription.map TypeNode.ofExpr) readonly)
  | .other => none

/-- A class. -/
def ClassDeclaration.ofBody (name : String) (body : List Source.ClassElement) : ClassDeclaration :=
  ⟨name, body.filterMap Member.ofElement?⟩

/-- A function. -/
def FunctionDeclaration.ofCallable (name : String) (callable : Source.Callable) : FunctionDeclaration :=
  ⟨name, callable.params.map Param.ofPattern, callable.returns.map TypeNode.ofExpr⟩

/-- The default export of a file. -/
def Item.ofDefault : Source.DefaultDeclaration → Item
  | .classDecl name body => .declaration (.classDecl (.ofBody (name.getD "Anonymous") body))
  | .function name callable => .declaration (.function (.ofCallable (name.getD "anonymous") callable))
  | .interface name => .declaration (.interface name)

mutual

/-- A declaration, if it has a binding. The global scope and modules without a body have none. -/
def Item.ofDeclaration? : Source.Declaration → Option Item
  | .classDecl name body => some (.declaration (.classDecl (.ofBody name body)))
  | .function name callable => some (.declaration (.function (.ofCallable name callable)))
  | .interface name => some (.declaration (.interface name))
  | .typeAlias name aliased => some (.declaration (.alias ⟨name, .ofExpr aliased⟩))
  | .namespaceDecl name isGlobal (some body) => if isGlobal then none else some (.namespaceItem name (ofBody body))
  | .namespaceDecl _ _ none => none
  | .other => none

/-- The declarations in the body of a namespace. -/
def Item.ofBody : Source.NamespaceBody → List Item
  | .block items => ofItems items
  | .dotted name body => [.namespaceItem name (ofBody body)]

/-- What an item declares, if it has a binding. -/
def Item.ofItem? : Source.Item → Option Item
  | .statement decl => ofDeclaration? decl
  | .exported decl => ofDeclaration? decl
  | .exportedDefault decl => some (ofDefault decl)
  | .other => none

/-- What a list of items declares. -/
def Item.ofItems : List Source.Item → List Item
  | [] => []
  | item :: items => (ofItem? item).toList ++ ofItems items

end

/-! ## Dotted names -/

/-- The rest of a dotted name is a namespace of its own. -/
theorem Item.ofBody_dotted (name : String) (body : Source.NamespaceBody) :
    Item.ofBody (.dotted name body) = [.namespaceItem name (Item.ofBody body)] := by
  rw [Item.ofBody]

theorem Item.ofBody_block (items : List Source.Item) : Item.ofBody (.block items) = Item.ofItems items := by
  rw [Item.ofBody]

end InteropBindings
