import InteropBindings.Binding.Signature

/-!
# Bindings of declarations

The text that binds a class, a function or a type alias, and the imports that the text needs.

- a class is a stub and an extension with its members; a further declaration of it only adds an extension with the
  members that are new (`ClassDeclaration.emit`);
- a function is bound once for each signature (`FunctionDeclaration.emit`);
- a type alias is always bound (`AliasDeclaration.emit`).
-/

namespace InteropBindings

/-- Text of bindings and the imports that it needs. -/
structure Chunk where
  code : String
  imports : List String
deriving DecidableEq, Repr

/-- The mark that names what is bound. -/
def boundTo (name : QualifiedName) : String := "@JS('" ++ name.text ++ "')\n"

/-! ## Classes -/

/-- The first declaration of a class, with its factory alone. -/
def classStub (name : QualifiedName) (className : String) : String :=
  boundTo name ++ "@staticInterop\nclass " ++ className ++ " \x7b\n  external factory " ++ className
    ++ "(JSObject? opt_options);\n\x7d\n\n"

/-- The members whose signature is neither among those seen nor repeated. -/
def Member.fresh : (seen : List String) → List Member → List Member
  | _, [] => []
  | seen, m :: rest =>
    if seen.contains m.signature then fresh seen rest else m :: fresh (seen ++ [m.signature]) rest

/-- The text of a member. -/
def Scope.member (s : Scope) : Member → String
  | .method name params returns =>
    "  external " ++ s.typeName? returns ++ " " ++ name ++ "(" ++ s.params params ++ ");\n"
  | .property name type readonly =>
    "  external " ++ s.typeName? type ++ " get " ++ name ++ ";\n"
      ++ (if readonly then "" else "  external set " ++ name ++ "(" ++ s.typeName? type ++ " value);\n")

/-- An extension with members, if there are any. -/
def extensionBlock (className : String) (members : List String) : String :=
  if members.isEmpty then ""
  else "extension " ++ className ++ "Extension on " ++ className ++ " \x7b\n" ++ String.join members ++ "\x7d\n\n"

namespace ClassDeclaration

/-- The members of a class that have not been bound yet. -/
def freshMembers (c : ClassDeclaration) (known : MemberSignatures) (name : QualifiedName) : List Member :=
  Member.fresh (known.of name) c.members

/-- The binding of a class. -/
def emit (c : ClassDeclaration) (s : Scope) (known : MemberSignatures) : Chunk :=
  let name := s.qualify c.name
  let fresh := c.freshMembers known name
  { code := (if known.contains name then "" else classStub name c.name) ++ extensionBlock c.name (fresh.map s.member)
    imports := fresh.flatMap fun m => s.imports m.types }

/-- The signatures bound after a class. -/
def signatures (c : ClassDeclaration) (s : Scope) (known : MemberSignatures) : MemberSignatures :=
  let name := s.qualify c.name
  known.put name (known.of name ++ (c.freshMembers known name).map Member.signature)

/-- What is told of the members of a class. -/
def memberEvents (s : Scope) (name : QualifiedName) : (seen : List String) → List Member → List Event
  | _, [] => []
  | seen, m :: rest =>
    if seen.contains m.signature then .memberRepeated name m.signature :: memberEvents s name seen rest
    else s.typeEvents m.types ++ memberEvents s name (seen ++ [m.signature]) rest

/-- What is told of a class. -/
def events (c : ClassDeclaration) (s : Scope) (known : MemberSignatures) : List Event :=
  let name := s.qualify c.name
  (if known.contains name then [.classMerged name] else []) ++ memberEvents s name (known.of name) c.members

end ClassDeclaration

/-! ## Functions -/

namespace FunctionDeclaration

/-- Whether a function of this signature has been bound already. -/
def isKnown (f : FunctionDeclaration) (s : Scope) (known : MemberSignatures) : Bool :=
  (known.of (s.qualify f.name)).contains f.signature

/-- The binding of a function, which is empty when it is known. -/
def emit (f : FunctionDeclaration) (s : Scope) (known : MemberSignatures) : Chunk :=
  if f.isKnown s known then ⟨"", []⟩
  else
    { code := boundTo (s.qualify f.name) ++ "external " ++ s.typeName? f.returns ++ " " ++ f.name ++ "("
        ++ s.params f.params ++ ");\n\n"
      imports := s.imports f.types }

/-- The signatures bound after a function. -/
def signatures (f : FunctionDeclaration) (s : Scope) (known : MemberSignatures) : MemberSignatures :=
  if f.isKnown s known then known
  else known.put (s.qualify f.name) (known.of (s.qualify f.name) ++ [f.signature])

/-- What is told of a function. -/
def events (f : FunctionDeclaration) (s : Scope) (known : MemberSignatures) : List Event :=
  if f.isKnown s known then [.functionRepeated f.signature] else s.typeEvents f.types

end FunctionDeclaration

/-! ## Type aliases -/

/-- Whether a type stands for plain objects: a literal with an index signature alone, or one of two names. -/
def TypeNode.isObjectLike : TypeNode → Bool
  | .literal members => members == [.indexSignature]
  | .keyword k => k == .object
  | .reference name => name == "Object"
  | .array _ | .other => false

namespace AliasDeclaration

/-- The type that is looked up for an alias, unless it stands for plain objects. -/
def lookedUp (a : AliasDeclaration) : Option TypeNode := if a.aliased.isObjectLike then none else some a.aliased

/-- The binding of a type alias. -/
def emit (a : AliasDeclaration) (s : Scope) : Chunk :=
  { code := boundTo (s.qualify a.name) ++ "@staticInterop\ntypedef " ++ a.name ++ " = " ++ s.typeName? a.lookedUp
      ++ ";\n\n"
    imports := s.imports [a.lookedUp] }

/-- What is told of a type alias. -/
def events (a : AliasDeclaration) (s : Scope) : List Event := s.typeEvents [a.lookedUp]

end AliasDeclaration

end InteropBindings
