import InteropBindings.Binding.TypeName

/-!
# Signatures and parameters

A signature tells the members of a symbol apart: a callable by its name and the names of its parameters, a property by
its name.
-/

namespace InteropBindings

open Text

/-- The signature of a callable. -/
def callSignature (name : String) (params : List Param) : String :=
  name ++ "(" ++ listed ", " (params.map Param.name) ++ ")"

/-- The signature of a property. -/
def propertySignature (name : String) : String := "get " ++ name

/-- The signature of a member of a class. -/
def Member.signature : Member → String
  | .method name params _ => callSignature name params
  | .property name _ _ => propertySignature name

/-- The signature of a function. -/
def FunctionDeclaration.signature (f : FunctionDeclaration) : String := callSignature f.name f.params

/-- The types in a callable in the order in which they are looked at. -/
def callableTypes (params : List Param) (returns : Option TypeNode) : List (Option TypeNode) :=
  params.map Param.type ++ [returns]

/-- The types in a member. -/
def Member.types : Member → List (Option TypeNode)
  | .method _ params returns => callableTypes params returns
  | .property _ type _ => [type]

/-- The types in a function. -/
def FunctionDeclaration.types (f : FunctionDeclaration) : List (Option TypeNode) := callableTypes f.params f.returns

/-- The text of a parameter. An optional one may be null. -/
def Scope.param (s : Scope) (p : Param) : String :=
  s.typeName? p.type ++ (if p.isOptional then "?" else "") ++ " " ++ p.name

/-- The text of parameters. -/
def Scope.params (s : Scope) (ps : List Param) : String := listed ", " (ps.map s.param)

/-- The signatures of each symbol that have been bound already. -/
abbrev MemberSignatures := Ledger QualifiedName (List String)

/-- The signatures of a symbol that have been bound already. -/
def MemberSignatures.of (known : MemberSignatures) (name : QualifiedName) : List String := (known.get? name).getD []

end InteropBindings
