import InteropBindings.Keyword
import InteropBindings.Path

/-!
# Declarations

The declarations of a file as far as bindings are made from them: classes, functions, type aliases and namespaces, and
interfaces by name.
-/

namespace InteropBindings

/-- A member of an object type. -/
inductive TypeMember
  | indexSignature
  | property (name : String)
  | method (name : String)
  | other
deriving DecidableEq, Repr

/-- A type. -/
inductive TypeNode
  | keyword (k : Keyword)
  /-- A type by its name, with its namespaces and points between them. -/
  | reference (name : String)
  | array (element : TypeNode)
  | literal (members : List TypeMember)
  | other
deriving DecidableEq, Repr

/-- A parameter. -/
structure Param where
  name : String
  type : Option TypeNode := none
  isOptional : Bool := false
deriving DecidableEq, Repr

/-- A member of a class. -/
inductive Member
  | method (name : String) (params : List Param) (returns : Option TypeNode)
  | property (name : String) (type : Option TypeNode) (readonly : Bool)
deriving DecidableEq, Repr

/-- A class. -/
structure ClassDeclaration where
  name : String
  members : List Member := []
deriving DecidableEq, Repr

/-- A function. -/
structure FunctionDeclaration where
  name : String
  params : List Param := []
  returns : Option TypeNode := none
deriving DecidableEq, Repr

/-- A type alias. -/
structure AliasDeclaration where
  name : String
  aliased : TypeNode
deriving DecidableEq, Repr

/-- A declaration other than a namespace. -/
inductive Declaration
  | classDecl (decl : ClassDeclaration)
  | interface (name : String)
  | function (decl : FunctionDeclaration)
  | alias (decl : AliasDeclaration)
deriving DecidableEq, Repr

/-- The declared name. -/
def Declaration.name : Declaration → String
  | .classDecl decl => decl.name
  | .interface name => name
  | .function decl => decl.name
  | .alias decl => decl.name

/-- An item of a file: a declaration, or a namespace around further items. -/
inductive Item
  | declaration (decl : Declaration)
  | namespaceItem (name : String) (body : List Item)
deriving Repr

/-- A file of declarations. -/
structure DeclarationFile where
  path : Path
  items : List Item
deriving Repr

end InteropBindings
