import InteropBindings.Symbol.Table
import InteropBindings.Text.Lowercase

/-!
# Types of bindings

Only the scalar keywords, arrays, and references to declared symbols have a binding type of their own; everything else
is an opaque object.

- a reference is looked up in the namespaces around it and nowhere else (`Scope.typeName`);
- a reference to a symbol of another file needs an import (`Scope.import?`).
-/

namespace InteropBindings

open Text

/-- The type of whatever has no type of its own. -/
def opaqueType : String := "JSObject"

/-- The binding type of a keyword. -/
def Keyword.typeName : Keyword → String
  | .string => "JSString"
  | .number => "JSNumber"
  | .boolean => "JSBoolean"
  | .void => "void"
  | .any | .object | .unknown | .never | .undefined | .null | .symbol | .bigint | .intrinsic => opaqueType

/-- Where the binding of a symbol is imported from. It follows from the name alone. -/
def importPath (name : QualifiedName) : String :=
  let path := joined '/' (name.namespaceSegments.map lower ++ [lower name.symbolName ++ ".dart"])
  if beginsWith "." path then path else "./" ++ path

/-- The name that a type refers to, under any number of array levels. -/
def TypeNode.referenced? : TypeNode → Option String
  | .reference name => some name
  | .array element => element.referenced?
  | .keyword _ | .literal _ | .other => none

/-- Where a declaration stands: among the symbols of a run, in a file, inside namespaces. -/
structure Scope where
  table : SymbolTable
  file : Path
  around : NamespacePath

namespace Scope

/-- The qualified name of something declared here. -/
def qualify (s : Scope) (name : String) : QualifiedName := .within s.around name

/-- The binding type of a type. -/
def typeName (s : Scope) : TypeNode → String
  | .reference name => if s.table.contains (s.qualify name) then (s.qualify name).symbolName else opaqueType
  | .array element => "JSArray<" ++ s.typeName element ++ ">"
  | .keyword k => k.typeName
  | .literal _ | .other => opaqueType

/-- The import that a type needs: that of a symbol which another file declares, unless it is a platform file. -/
def import? (s : Scope) (t : TypeNode) : Option String := do
  let name := s.qualify (← t.referenced?)
  let file ← s.table.lookup name
  if file.same s.file || s.table.isPlatform file then none else some (importPath name)

/-- The name that a type refers to although no symbol has it. -/
def unresolved? (s : Scope) (t : TypeNode) : Option QualifiedName := do
  let name := s.qualify (← t.referenced?)
  if s.table.contains name then none else some name

/-! ## Types that may be left out -/

/-- The binding type where a type may be left out. -/
def typeName? (s : Scope) (t : Option TypeNode) : String := (t.map s.typeName).getD opaqueType

/-- The imports that some types need. -/
def imports (s : Scope) (types : List (Option TypeNode)) : List String :=
  types.filterMap fun t => t.bind s.import?

/-- What is told of types without a symbol. -/
def typeEvents (s : Scope) (types : List (Option TypeNode)) : List Event :=
  types.filterMap fun t => (t.bind s.unresolved?).map .unresolved

end Scope

end InteropBindings
