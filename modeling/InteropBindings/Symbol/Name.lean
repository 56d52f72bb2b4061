import InteropBindings.Declaration.Located
import InteropBindings.Text.Segments

/-!
# Qualified names

The name of a symbol together with its namespaces, with points between them.
-/

namespace InteropBindings

/-- A dotted name. -/
structure QualifiedName where
  text : String
deriving DecidableEq, Repr

namespace QualifiedName

/-- The name of a symbol inside some namespaces. -/
def within (around : NamespacePath) (name : String) : QualifiedName :=
  if around.isEmpty then ⟨name⟩ else ⟨Text.joined '.' around ++ "." ++ name⟩

/-- The parts between the points. -/
def parts (q : QualifiedName) : List String := Text.segments '.' q.text

/-- All parts but the last. -/
def namespaceSegments (q : QualifiedName) : List String := q.parts.dropLast

/-- The last part. -/
def symbolName (q : QualifiedName) : String := q.parts.getLastD ""

theorem within_nil (name : String) : within [] name = ⟨name⟩ := rfl

end QualifiedName

/-- The qualified name of a declaration. -/
def Located.qualifiedName (l : Located) : QualifiedName := .within l.around l.declaration.name

end InteropBindings
