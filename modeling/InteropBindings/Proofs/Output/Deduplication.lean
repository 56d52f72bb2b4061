import InteropBindings.Proofs.Binding.Signatures
import InteropBindings.Proofs.Output.Merging

/-!
# What is dropped as a repetition

A record binds everything once for each signature of a symbol and drops what is declared under a signature again.
Signatures of plain shapes tell these apart, so nothing else gets lost:

- what is emitted of some declarations goes on from what is emitted of the first of them (`emittedOf_append_cons`);
- a key is that of something emitted exactly when it is that of something declared (`mem_keys_emittedOf`);
- with plain shapes, a member or a function is dropped exactly when one of its symbol and shape has been emitted
  (`emittedOf_append_cons_of_isPlain`), in every record of a run (`OutputRecords.signatures_tell_members_apart`).
-/

namespace InteropBindings

/-- The shape of a member or a function. -/
def Bindable.shape : Bindable → Shape
  | .member m => m.shape
  | .function f => f.shape

theorem Bindable.signature_shape (b : Bindable) : b.shape.signature = b.signature := by
  cases b with
  | member m => exact m.signature_shape
  | function f => exact f.signature_shape

/-- The shape of what is bound. -/
def Binding.shape (b : Binding) : Shape := b.bindable.shape

/-- Bindings of plain shapes have one key exactly when they share the symbol and the shape. -/
theorem Binding.key_eq_iff {b b' : Binding} (h : b.shape.IsPlain) (h' : b'.name = b.name → b'.shape.IsPlain) :
    b'.key = b.key ↔ b'.name = b.name ∧ b'.shape = b.shape := by
  rw [key, key, Prod.mk.injEq]
  refine and_congr_right fun hname => ?_
  rw [signature, signature, ← Bindable.signature_shape, ← Bindable.signature_shape]
  exact Shape.signature_inj (h' hname) h

/-! ## What is emitted -/

/-- What is emitted of members and functions that are declared one after the other: each that has a signature which is
new for its symbol. -/
def emittedOf (declared : List Binding) : List Binding := firsts Binding.key [] declared

/-- Something is emitted under every key that is declared, and under no other. -/
theorem mem_keys_emittedOf {declared : List Binding} {k : QualifiedName × String} :
    k ∈ (emittedOf declared).map Binding.key ↔ k ∈ declared.map Binding.key := by
  rw [emittedOf, mem_map_firsts]
  exact and_iff_left List.not_mem_nil

/-- What is declared after others is emitted if its key is new, and what comes later does not matter to it. -/
theorem emittedOf_append_cons (before : List Binding) (b : Binding) (after : List Binding) :
    ∃ rest, emittedOf (before ++ b :: after) =
      emittedOf before ++ (if ∃ b' ∈ emittedOf before, b'.key = b.key then [] else [b]) ++ rest := by
  have hseen : (∃ b' ∈ emittedOf before, b'.key = b.key) ↔ b.key ∈ before.map Binding.key := by
    rw [← mem_keys_emittedOf, List.mem_map]
  rw [emittedOf, firsts_append, List.nil_append, firsts_cons]
  by_cases h : b.key ∈ before.map Binding.key
  · refine ⟨firsts Binding.key (before.map Binding.key) after, ?_⟩
    rw [if_pos h, if_pos (hseen.mpr h), List.append_nil, emittedOf]
  · refine ⟨firsts Binding.key (b.key :: before.map Binding.key) after, ?_⟩
    rw [if_neg h, if_neg (mt hseen.mp h), List.append_assoc, List.singleton_append, emittedOf]

/-- **A member or a function is dropped** exactly when one of its symbol and shape has been emitted, if it and all that
has been emitted of the symbol have plain shapes. -/
theorem emittedOf_append_cons_of_isPlain {before : List Binding} {b : Binding} (h : b.shape.IsPlain)
    (hbefore : ∀ b' ∈ emittedOf before, b'.name = b.name → b'.shape.IsPlain) (after : List Binding) :
    ∃ rest, emittedOf (before ++ b :: after) =
      emittedOf before ++ (if ∃ b' ∈ emittedOf before, b'.name = b.name ∧
        b'.shape = b.shape then [] else [b]) ++ rest := by
  have hsame : (∃ b' ∈ emittedOf before, b'.key = b.key) ↔ ∃ b' ∈ emittedOf before, b'.name = b.name ∧
    b'.shape = b.shape :=
    exists_congr fun b' => and_congr_right fun hb' => Binding.key_eq_iff h (hbefore b' hb')
  simpa only [hsame] using emittedOf_append_cons before b after

/-! ## Records of a run -/

namespace OutputRecords

/-- **Signatures tell members apart.** The name of a callable may be any text. Where parameters have names that are not
empty and hold neither parentheses that open nor commas, two callables have one signature exactly when their names and
the names of their parameters are the same. Two properties have one signature exactly when their names are the same. A
property whose name holds no parenthesis that opens has the signature of no callable.

So in a record of a run, whose text is that of blocks which bind what is emitted of the members and functions that are
sent there, each of these is dropped exactly when one of its symbol and shape has been emitted before, if it and what
has been emitted of the symbol have such names. The shape is that of a callable, with its name and the names of its
parameters, or of a property, with its name. -/
theorem signatures_tell_members_apart :
    (∀ (name name' : String) (params params' : List Param), (∀ p ∈ params, IsPlainParam p.name) →
      (∀ p ∈ params', IsPlainParam p.name) →
        (callSignature name params = callSignature name' params' ↔
          name = name' ∧ params.map Param.name = params'.map Param.name)) ∧
    (∀ name name' : String, propertySignature name = propertySignature name' ↔ name = name') ∧
    (∀ (name name' : String) (params : List Param), '(' ∉ name.toList →
      propertySignature name ≠ callSignature name' params) ∧
    ∀ (files : List DeclarationFile) (table : SymbolTable) (layout : OutputLayout) (path : String) (r : OutputRecord),
      (route files table layout).get? path = some r →
      let ls := sentTo table layout files path
      r.code = String.join ((blocksOf ls).map (Block.text table)) ∧
      (blocksOf ls).flatMap Block.bindings = emittedOf (ls.flatMap Located.bindings) ∧
      ∀ before b after, ls.flatMap Located.bindings = before ++ b :: after → b.shape.IsPlain →
        (∀ b' ∈ emittedOf before, b'.name = b.name → b'.shape.IsPlain) →
        ∃ rest, (blocksOf ls).flatMap Block.bindings =
          emittedOf before ++ (if ∃ b' ∈ emittedOf before, b'.name = b.name ∧
            b'.shape = b.shape then [] else [b]) ++ rest := by
  refine ⟨fun name name' params params' => callSignature_inj, fun name name' => propertySignature_inj,
    fun name name' params h => propertySignature_ne_callSignature h name' params, ?_⟩
  intro files table layout path r hr ls
  have hrep : r.Represents table ls := represents_of_get?_route hr
  have hbound : (blocksOf ls).flatMap Block.bindings = emittedOf (ls.flatMap Located.bindings) := bindings_blocksOf ls
  refine ⟨hrep.code_eq, hbound, fun before b after hdeclared hb hbefore => ?_⟩
  rw [hbound, hdeclared]
  exact emittedOf_append_cons_of_isPlain hb hbefore after

/-- A method that a class has already, but for its type. -/
def methodAgain : Member := .method "on" [.ofName "type"] (some (.keyword .string))

/-- A class in two files. The second one has a method of the first one again and one with a further parameter. -/
def sourceFiles : List DeclarationFile :=
  [⟨⟨"in/a.d.ts"⟩, [.namespaceItem "ol"
     [.declaration (.classDecl ⟨"Source", [.property "on" none true, .method "on" [.ofName "type"] none]⟩)]]⟩,
   ⟨⟨"in/b.d.ts"⟩, [.namespaceItem "ol"
     [.declaration (.classDecl ⟨"Source", [methodAgain, .method "on" [.ofName "type", .ofName "listener"] none]⟩)]]⟩]

/-- The method that comes again is dropped, since one of its shape has been emitted, and nothing else is. -/
theorem signatures_tell_members_apart_source :
    let table := SymbolTable.build sourceFiles {}
    let ls := sentTo table ⟨⟨"in"⟩, ⟨"out"⟩⟩ sourceFiles "out/ol/source.dart"
    let declared := ls.flatMap Located.bindings
    let emitted := (blocksOf ls).flatMap Block.bindings
    callSignature "on" [.ofName "type"] ≠ callSignature "on" [.ofName "type", .ofName "listener"] ∧
      propertySignature "on" ≠ callSignature "get on" [] ∧
      emitted.map Binding.shape = [.property "on", .callable "on" ["type"], .callable "on" ["type", "listener"]] ∧
      ∃ l rest, declared = declared.take 2 ++ ⟨l, .member methodAgain⟩ :: declared.drop 3 ∧
        emitted = emittedOf (declared.take 2) ++ rest := by
  intro table ls declared emitted
  obtain ⟨hcallables, _, hproperties, hrecords⟩ := signatures_tell_members_apart
  have hsent : ls ≠ [] := by decide
  obtain ⟨_, hbound, hdropped⟩ := hrecords _ _ _ _ _ (get?_route_of_sentTo_ne_nil table _ hsent)
  refine ⟨mt (hcallables _ _ _ _ (by decide) (by decide)).mp (by decide), hproperties _ _ _ (by decide), ?_, ?_⟩
  · rw [show emitted = emittedOf declared from hbound]
    decide
  · let l : Located := ⟨⟨"in/b.d.ts"⟩, ["ol"],
      .classDecl ⟨"Source", [methodAgain, .method "on" [.ofName "type", .ofName "listener"] none]⟩⟩
    have hdeclared : declared = declared.take 2 ++ ⟨l, .member methodAgain⟩ :: declared.drop 3 := by decide
    obtain ⟨rest, hrest⟩ := hdropped _ _ _ hdeclared (by decide) (by decide)
    rw [if_pos (by decide), List.append_nil] at hrest
    exact ⟨l, rest, hdeclared, hrest⟩

end OutputRecords

end InteropBindings
