import InteropBindings.Keyword
import InteropBindings.Number.Binary64

/-!
# Syntax trees of declaration files

What reading a source file yields. Only the parts that matter for bindings are told apart; everything else has been
checked for its form and appears as `other`.
-/

namespace InteropBindings.Source

/-- A dotted name, its last part outermost. -/
inductive EntityName
  | name (part : String)
  | member (qualifier : EntityName) (part : String)
deriving DecidableEq, Repr

/-- The key of a member of an object type: a plain name, or anything else. -/
inductive MemberKey
  | named (name : String)
  | unnamed
deriving DecidableEq, Repr

/-- A member of an object type. -/
inductive TypeElement
  | indexSignature
  | property (key : MemberKey)
  | method (key : MemberKey)
  | other
deriving DecidableEq, Repr

/-- A type as written. -/
inductive TypeExpr
  | keyword (k : Keyword)
  | reference (name : EntityName)
  | array (element : TypeExpr)
  | literal (members : List TypeElement)
  | parenthesized (inner : TypeExpr)
  | other
deriving DecidableEq, Repr

/-- What is bound by a parameter. -/
inductive Pattern
  | ident (name : String) (ascription : Option TypeExpr) (isOptional : Bool)
  | rest (argument : Pattern) (ascription : Option TypeExpr)
  | withDefault (target : Pattern)
  | array (ascription : Option TypeExpr) (isOptional : Bool)
  | object (ascription : Option TypeExpr) (isOptional : Bool)
  | other
deriving DecidableEq, Repr

/-- An expression, as far as it can name a computed key. -/
inductive Expr
  | ident (name : String)
  | text (value : String)
  | member (object : Expr) (name : String)
  | other
deriving DecidableEq, Repr

/-- The key of a class member. -/
inductive PropertyKey
  | ident (name : String)
  | text (value : String)
  | number (value : Number.Decimal)
  | bigint (value : Nat)
  | computed (key : Expr)
deriving DecidableEq, Repr

/-- The parameters and the return type of a callable. -/
structure Callable where
  params : List Pattern
  returns : Option TypeExpr
deriving DecidableEq, Repr

/-- A member of a class body. -/
inductive ClassElement
  | method (key : PropertyKey) (callable : Callable)
  | property (key : PropertyKey) (ascription : Option TypeExpr) (readonly : Bool)
  | other
deriving DecidableEq, Repr

/-- A declaration exported as the default of its file, which may lack a name. -/
inductive DefaultDeclaration
  | classDecl (name : Option String) (body : List ClassElement)
  | function (name : Option String) (callable : Callable)
  | interface (name : String)
deriving DecidableEq, Repr

mutual

/-- A declaration. -/
inductive Declaration
  | classDecl (name : String) (body : List ClassElement)
  | function (name : String) (callable : Callable)
  | interface (name : String)
  | typeAlias (name : String) (aliased : TypeExpr)
  /-- A namespace or module; the global scope and modules without a body are marked. -/
  | namespaceDecl (name : String) (isGlobal : Bool) (body : Option NamespaceBody)
  | other

/-- The body of a namespace: a block, or the rest of a dotted name with its body. -/
inductive NamespaceBody
  | block (items : List Item)
  | dotted (name : String) (body : NamespaceBody)

/-- An item of a file or of a namespace block. -/
inductive Item
  | statement (decl : Declaration)
  | exported (decl : Declaration)
  | exportedDefault (decl : DefaultDeclaration)
  | other

end

end InteropBindings.Source
