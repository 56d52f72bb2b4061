import InteropBindings.Binding.Emission
import InteropBindings.Sorted

/-!
# Output records

A record gathers what goes into one binding file.

- classes and functions add their text at the end, if there is any;
- a type alias that is declared again replaces its earlier text in place.
-/

namespace InteropBindings

/-- Strings as a sorted set. -/
def sortedTexts (texts : List String) : List String := Sorted.ofList compare texts

/-- What goes into one binding file. -/
structure OutputRecord where
  chunks : List Chunk := []
  /-- The places of type aliases among the chunks. -/
  slots : Ledger QualifiedName Nat := .empty
  signatures : MemberSignatures := .empty
deriving DecidableEq, Repr

namespace OutputRecord

/-- The text of the bindings. -/
def code (r : OutputRecord) : String := String.join (r.chunks.map Chunk.code)

/-- The imports that the text needs. -/
def imports (r : OutputRecord) : List String := sortedTexts (r.chunks.flatMap Chunk.imports)

/-- Whether there is no text. -/
def isEmpty (r : OutputRecord) : Bool := r.chunks.all fun c => c.code.isEmpty

/-- Adds a chunk at the end, unless it is empty. -/
def push (r : OutputRecord) (c : Chunk) : OutputRecord :=
  if c.code.isEmpty then r else { r with chunks := r.chunks ++ [c] }

/-- Sets the text of a type alias. -/
def setAlias (r : OutputRecord) (name : QualifiedName) (c : Chunk) : OutputRecord :=
  match r.slots.get? name with
  | some slot => { r with chunks := r.chunks.set slot c }
  | none => { r with chunks := r.chunks ++ [c], slots := r.slots.put name r.chunks.length }

/-- Adds a declaration. Interfaces have no binding. -/
def add (r : OutputRecord) (s : Scope) : Declaration → OutputRecord
  | .classDecl c => { r.push (c.emit s r.signatures) with signatures := c.signatures s r.signatures }
  | .function f => { r.push (f.emit s r.signatures) with signatures := f.signatures s r.signatures }
  | .alias a => r.setAlias (s.qualify a.name) (a.emit s)
  | .interface _ => r

/-- What is told when a declaration is added. -/
def addEvents (r : OutputRecord) (s : Scope) : Declaration → List Event
  | .classDecl c => c.events s r.signatures
  | .function f => f.events s r.signatures
  | .alias a =>
    a.events s ++ if r.slots.contains (s.qualify a.name) then [.typedefReplaced (s.qualify a.name)] else []
  | .interface _ => []

end OutputRecord

end InteropBindings
