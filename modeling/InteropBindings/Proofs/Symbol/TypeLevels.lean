import InteropBindings.Proofs.Sorted
import InteropBindings.Proofs.Symbol.Resolution

/-!
# Types level by level

A written type is a core below some levels of arrays, with parentheses anywhere between them. Its binding type is that
of the core, written between as many marks as there are levels, and the imports follow from the core alone
(`Scope.typeName_levels`).
-/

namespace InteropBindings

open Text

/-! ## Levels and core -/

namespace Source.TypeExpr

/-- How many arrays are met on the way down through arrays and parentheses. -/
def levels : TypeExpr → Nat
  | .array element => element.levels + 1
  | .parenthesized inner => inner.levels
  | .keyword _ | .reference _ | .literal _ | .other => 0

/-- What stands at the end of the way down through arrays and parentheses. -/
def core : TypeExpr → TypeExpr
  | .array element => element.core
  | .parenthesized inner => inner.core
  | .keyword k => .keyword k
  | .reference name => .reference name
  | .literal members => .literal members
  | .other => .other

end Source.TypeExpr

/-- A name between the marks of some array levels. -/
def arrayName (levels : Nat) (name : String) : String :=
  String.join (List.replicate levels "JSArray<") ++ name ++ String.join (List.replicate levels ">")

/-- One more level goes around the others. -/
theorem arrayName_succ (levels : Nat) (name : String) :
    arrayName (levels + 1) name = "JSArray<" ++ arrayName levels name ++ ">" := by
  have hopen : String.join (List.replicate (levels + 1) "JSArray<") =
      "JSArray<" ++ String.join (List.replicate levels "JSArray<") := by
    rw [List.replicate_succ, String.join_cons]
  have hclose : String.join (List.replicate (levels + 1) ">") = String.join (List.replicate levels ">") ++ ">" := by
    rw [List.replicate_succ', String.join_append, String.join_cons, String.join_nil, String.append_empty]
  rw [arrayName, hopen, hclose, arrayName]
  simp only [String.append_assoc]

/-! ## Names -/

/-- The last part of a qualified name is that of the name, whatever namespaces stand around it. -/
theorem QualifiedName.symbolName_within_eq (around : NamespacePath) (name : String) :
    (within around name).symbolName = (⟨name⟩ : QualifiedName).symbolName := by
  by_cases ha : around = []
  · rw [ha, within_nil]
  · have hne : segments '.' name ≠ [] := by simpa [segments] using segmentsOf_ne_nil '.' name.toList
    rw [symbolName, parts_within_of_ne_nil ha, symbolName, parts, List.getLastD_eq_getLast?, List.getLast?_append,
      List.getLastD_eq_getLast?, List.getLast?_eq_some_getLast hne, Option.some_or]

/-- The last segment of a dotted name. -/
def Source.EntityName.lastSegment (name : EntityName) : String := (⟨name.text⟩ : QualifiedName).symbolName

/-- The last segment is the last part, which has no point when it is an identifier. -/
theorem Source.EntityName.lastSegment_eq_final {name : EntityName} (h : PointFree name.final) :
    name.lastSegment = name.final := by
  have hname : (⟨name.text⟩ : QualifiedName) = .within name.qualifiers name.final := name.within_text []
  rw [lastSegment, hname, QualifiedName.symbolName_within _ h]

namespace Scope

variable (s : Scope)

/-- The binding type of a core: that of a keyword, the last segment of a name that the table holds, an opaque object. -/
def coreName : Source.TypeExpr → String
  | .keyword k => k.typeName
  | .reference name => if s.table.contains (s.qualify name.text) then name.lastSegment else opaqueType
  | _ => opaqueType

/-- The binding type of a written type is built up level by level. -/
theorem typeName_ofExpr (type : Source.TypeExpr) :
    s.typeName (TypeNode.ofExpr type) = arrayName type.levels (s.coreName type.core) := by
  have hzero : ∀ name, arrayName 0 name = name := fun name => by simp [arrayName]
  induction type with
  | keyword k => exact (hzero _).symm
  | reference name =>
    have hlast : (s.qualify name.text).symbolName = name.lastSegment := QualifiedName.symbolName_within_eq _ _
    rw [TypeNode.ofExpr, typeName, hlast]
    exact (hzero _).symm
  | array element ih =>
    rw [TypeNode.ofExpr, typeName, ih, Source.TypeExpr.levels, arrayName_succ, Source.TypeExpr.core]
  | literal members => rw [TypeNode.ofExpr]; exact (hzero _).symm
  | parenthesized inner ih => rw [TypeNode.ofExpr, ih, Source.TypeExpr.levels, Source.TypeExpr.core]
  | other => exact (hzero _).symm

/-! ## Imports -/

/-- Whether a core is a reference to a symbol of another file, no platform file, and this is the path of its import. -/
def IsImportOf (core : Source.TypeExpr) (path : String) : Prop :=
  ∃ name file, core = .reference name ∧ s.table.lookup (s.qualify name.text) = some file ∧
    file.same s.file = false ∧ s.table.isPlatform file = false ∧ importPath (s.qualify name.text) = path

variable {s}

/-- What is no reference needs no import. -/
theorem import?_eq_some_iff_of_ne {type : Source.TypeExpr} (hnone : s.import? (TypeNode.ofExpr type) = none)
    (href : ∀ name, type.core ≠ .reference name) (path : String) :
    s.import? (TypeNode.ofExpr type) = some path ↔ s.IsImportOf type.core path := by
  rw [hnone]
  constructor
  · intro h
    cases h
  · rintro ⟨name, _, he, _⟩
    exact absurd he (href name)

/-- The import of a type is the one path that its core needs. -/
theorem import?_ofExpr_eq_some_iff (type : Source.TypeExpr) (path : String) :
    s.import? (TypeNode.ofExpr type) = some path ↔ s.IsImportOf type.core path := by
  induction type with
  | reference name =>
    have href : TypeNode.ofExpr (.reference name) = .reference name.text := rfl
    rw [href, import?_reference, Source.TypeExpr.core]
    constructor
    · intro h
      obtain ⟨file, hlookup, h⟩ := Option.bind_eq_some_iff.mp h
      split at h
      · cases h
      · next hno =>
        rw [Bool.or_eq_true, not_or, Bool.not_eq_true, Bool.not_eq_true] at hno
        exact ⟨name, file, rfl, hlookup, hno.1, hno.2, Option.some.inj h⟩
    · rintro ⟨_, file, he, hlookup, hother, hplatform, rfl⟩
      cases he
      rw [hlookup, Option.bind_some, hother, hplatform]
      rfl
  | array element ih => exact ih
  | parenthesized inner ih => exact ih
  | keyword k => exact import?_eq_some_iff_of_ne rfl (fun _ => by simp [Source.TypeExpr.core]) path
  | literal members => exact import?_eq_some_iff_of_ne rfl (fun _ => by simp [Source.TypeExpr.core]) path
  | other => exact import?_eq_some_iff_of_ne rfl (fun _ => by simp [Source.TypeExpr.core]) path

/-- A core needs one import at most. -/
theorem IsImportOf.unique {core : Source.TypeExpr} {path path' : String} (h : s.IsImportOf core path)
    (h' : s.IsImportOf core path') : path = path' := by
  obtain ⟨name, _, rfl, _, _, _, rfl⟩ := h
  obtain ⟨_, _, he, _, _, _, rfl⟩ := h'
  cases he
  rfl

/-- The import set after a type holds what was in it and the import of the type. -/
theorem mem_importsAfter {imports : List String} {type : TypeNode} {path : String} :
    path ∈ s.importsAfter imports type ↔ path ∈ imports ∨ s.import? type = some path := by
  rw [importsAfter, sortedTexts, Sorted.mem_ofList fun _ _ => Std.LawfulEqOrd.eq_of_compare, List.mem_append]
  simp [Scope.imports]

/-! ## Types -/

/-- **Types are translated level by level.** The binding type of a written type stands between as many marks as there
are arrays on the way down through arrays and parentheses. At its middle is that of the core: of a keyword, the last
segment of a name that the table holds, or an opaque object. The import set is sorted and grows by the one import that
the core needs, if any, whatever stands around the core. -/
theorem typeName_levels (s : Scope) (imports : List String) (type : Source.TypeExpr) :
    s.typeName (TypeNode.ofExpr type) =
        String.join (List.replicate type.levels "JSArray<") ++ s.coreName type.core ++
          String.join (List.replicate type.levels ">") ∧
      (∀ name, type.core = .reference name → PointFree name.final → name.lastSegment = name.final) ∧
      Sorted.IsSorted compare (s.importsAfter imports (TypeNode.ofExpr type)) ∧
      (∀ path, path ∈ s.importsAfter imports (TypeNode.ofExpr type) ↔ path ∈ imports ∨ s.IsImportOf type.core path) ∧
      (∀ path path', s.IsImportOf type.core path → s.IsImportOf type.core path' → path = path') := by
  refine ⟨s.typeName_ofExpr type, fun name _ => name.lastSegment_eq_final, Sorted.isSorted_ofList _, fun path => ?_,
    fun _ _ => IsImportOf.unique⟩
  rw [mem_importsAfter, import?_ofExpr_eq_some_iff]

/-- Parentheses between two arrays make no difference. -/
example :
    let s : Scope := ⟨.build [⟨⟨"in/b.d.ts"⟩, [.namespaceItem "ol" [.declaration (.interface "Map")]]⟩] {},
      ⟨"in/a.d.ts"⟩, []⟩
    let map : Source.TypeExpr := .reference (.member (.name "ol") "Map")
    let type := TypeNode.ofExpr (.array (.parenthesized (.array (.parenthesized map))))
    s.typeName type = "JSArray<JSArray<Map>>" ∧ s.importsAfter [] type = ["./ol/map.dart"] := by
  decide

end Scope

end InteropBindings
