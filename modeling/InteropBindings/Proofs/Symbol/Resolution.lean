import InteropBindings.Output.Record
import InteropBindings.Proofs.Symbol.Building
import InteropBindings.Proofs.Symbol.DottedNames

/-!
# Resolution of references

A reference is resolved by text: its dotted name is put behind the namespaces around it, and the result is looked up.
Where no name holds a point this finds exactly the types declared in the namespaces that the reference goes through,
seen from where it stands (`Scope.typeName_reference_iff_declared`).
-/

namespace InteropBindings

open Text

/-- Whether a file declares a class, an interface or a type alias of a name in exactly some namespaces. -/
def DeclarationFile.DeclaresTypeAt (file : DeclarationFile) (around : NamespacePath) (name : String) : Prop :=
  ∃ decl, file.Declares around decl ∧ decl.isType = true ∧ decl.name = name

/-- A file declares a type somewhere exactly when one of its symbols stands there. -/
theorem DeclarationFile.declaresTypeAt_iff {file : DeclarationFile} {around : NamespacePath} {name : String} :
    file.DeclaresTypeAt around name ↔
      ∃ l ∈ SymbolTable.symbolsOf file, l.around = around ∧ l.declaration.name = name := by
  constructor
  · rintro ⟨decl, hd, ht, hn⟩
    exact ⟨⟨file.path, around, decl⟩, SymbolTable.mem_symbolsOf.mpr ⟨rfl, hd, ht⟩, rfl, hn⟩
  · rintro ⟨l, hl, rfl, hn⟩
    obtain ⟨_, hd, ht⟩ := SymbolTable.mem_symbolsOf.mp hl
    exact ⟨l.declaration, hd, ht, hn⟩

instance {file : DeclarationFile} {around : NamespacePath} {name : String} :
    Decidable (file.DeclaresTypeAt around name) :=
  decidable_of_iff _ DeclarationFile.declaresTypeAt_iff.symm

/-- No name that a file declares holds a point, and no namespace around it does. -/
def DeclarationFile.PointFree (file : DeclarationFile) : Prop :=
  ∀ around decl, file.Declares around decl → (∀ s ∈ around, Text.PointFree s) ∧ Text.PointFree decl.name

/-- Names without points are told by the declarations of a file one after the other. -/
theorem DeclarationFile.pointFree_iff {file : DeclarationFile} :
    file.PointFree ↔ ∀ l ∈ file.located, (∀ s ∈ l.around, Text.PointFree s) ∧ Text.PointFree l.declaration.name := by
  constructor
  · intro h l hl
    exact h l.around l.declaration (mem_located.mp hl).2
  · intro h around decl hd
    exact h ⟨file.path, around, decl⟩ (mem_located.mpr ⟨rfl, hd⟩)

instance {file : DeclarationFile} : Decidable file.PointFree := decidable_of_iff _ DeclarationFile.pointFree_iff.symm

/-- Without points, a qualified name is declared exactly in its namespaces. -/
theorem DeclarationFile.PointFree.declaresType_iff {file : DeclarationFile} (hfile : file.PointFree)
    {around : NamespacePath} {name : String} (ha : ∀ s ∈ around, Text.PointFree s) (hn : Text.PointFree name) :
    file.DeclaresType (.within around name) ↔ file.DeclaresTypeAt around name := by
  constructor
  · rintro ⟨around', decl, hd, ht, he⟩
    obtain ⟨ha', hn'⟩ := hfile around' decl hd
    obtain ⟨rfl, rfl⟩ := QualifiedName.within_inj ha' hn' ha hn he
    exact ⟨decl, hd, ht, rfl⟩
  · rintro ⟨decl, hd, ht, rfl⟩
    exact ⟨around, decl, hd, ht, rfl⟩

/-- The last file is the same for properties that agree on all files. -/
theorem PlatformFilter.IsLast.congr {platform : PlatformFilter} {P Q : DeclarationFile → Prop}
    {files : List DeclarationFile} {file : DeclarationFile} (h : ∀ f ∈ files, P f ↔ Q f)
    (hl : platform.IsLast P files file) : platform.IsLast Q files file := by
  obtain ⟨before, after, rfl, hp, hP, hlater⟩ := hl
  refine ⟨before, after, rfl, hp, (h file (by simp)).mp hP, fun later hm hlp hQ => ?_⟩
  exact hlater later hm hlp ((h later (by simp [hm])).mpr hQ)

theorem PlatformFilter.HasNone.congr {platform : PlatformFilter} {P Q : DeclarationFile → Prop}
    {files : List DeclarationFile} (h : ∀ f ∈ files, P f ↔ Q f) (hn : platform.HasNone P files) :
    platform.HasNone Q files :=
  fun file hm hp hQ => hn file hm hp ((h file hm).mpr hQ)

/-! ## The import set -/

/-- The import set after a type has been looked at. -/
def Scope.importsAfter (s : Scope) (imports : List String) (type : TypeNode) : List String :=
  sortedTexts (imports ++ s.imports [some type])

theorem Scope.importsAfter_of_none {s : Scope} {type : TypeNode} (imports : List String) (h : s.import? type = none) :
    s.importsAfter imports type = sortedTexts imports := by
  simp [importsAfter, Scope.imports, h]

theorem Scope.importsAfter_of_some {s : Scope} {type : TypeNode} (imports : List String) {path : String}
    (h : s.import? type = some path) :
    s.importsAfter imports type = Sorted.insert compare path (sortedTexts imports) := by
  simp [importsAfter, Scope.imports, h, sortedTexts, Sorted.ofList]

/-! ## References -/

/-- What a reference needs follows from where its name is looked up. -/
theorem Scope.import?_reference (s : Scope) (name : String) : s.import? (.reference name) =
    (s.table.lookup (s.qualify name)).bind fun file =>
      if file.same s.file || s.table.isPlatform file then none else some (importPath (s.qualify name)) := rfl

theorem Scope.typeName_reference_of_some {s : Scope} {name : String} {file : Path}
    (h : s.table.lookup (s.qualify name) = some file) :
    s.typeName (.reference name) = (s.qualify name).symbolName := by
  have hc : s.table.contains (s.qualify name) = true := by
    rw [SymbolTable.contains, Ledger.contains]
    exact Option.isSome_of_eq_some h
  rw [typeName, if_pos hc]

theorem Scope.typeName_reference_of_none {s : Scope} {name : String} (h : s.table.lookup (s.qualify name) = none) :
    s.typeName (.reference name) = opaqueType := by
  have hc : s.table.contains (s.qualify name) = false := by
    rw [SymbolTable.contains, Ledger.contains]
    exact Option.isSome_eq_false_iff.mpr (Option.isNone_iff_eq_none.mpr h)
  rw [typeName, hc]
  rfl

section

variable (files : List DeclarationFile) (platform : PlatformFilter) (around : NamespacePath) (current : Path)
  (imports : List String) (entity : Source.EntityName)

/-- **References resolve exactly.** Where no name holds a point, a reference has the name of the type that the last
file, platform files apart, declares in the namespaces that the reference goes through, and adds its import when that
file is another one. When no file declares such a type, it is an opaque object and adds nothing. -/
theorem Scope.typeName_reference_iff_declared (hfiles : ∀ file ∈ files, file.PointFree)
    (ha : ∀ s ∈ around, Text.PointFree s) (hq : ∀ s ∈ entity.qualifiers, Text.PointFree s)
    (hf : Text.PointFree entity.final) :
    let s : Scope := ⟨SymbolTable.build files platform, current, around⟩
    let type := TypeNode.ofExpr (.reference entity)
    let target := around ++ entity.qualifiers
    (∀ file, platform.IsLast (·.DeclaresTypeAt target entity.final) files file →
      s.typeName type = entity.final ∧
      s.importsAfter imports type =
        if file.path.same current then sortedTexts imports
        else Sorted.insert compare (importPath (.within target entity.final)) (sortedTexts imports)) ∧
    (platform.HasNone (·.DeclaresTypeAt target entity.final) files →
      s.typeName type = opaqueType ∧ s.importsAfter imports type = sortedTexts imports) := by
  intro s type target
  have htype : type = .reference entity.text := by rw [← TypeNode.ofExpr]
  have hname : s.qualify entity.text = .within target entity.final := entity.within_text around
  have htarget : ∀ p ∈ target, Text.PointFree p := by
    intro p hp
    rcases List.mem_append.mp hp with hp | hp
    · exact ha p hp
    · exact hq p hp
  have hdeclares : ∀ file ∈ files,
      file.DeclaresTypeAt target entity.final ↔ file.DeclaresType (.within target entity.final) :=
    fun file hm => ((hfiles file hm).declaresType_iff htarget hf).symm
  rw [htype]
  constructor
  · intro file hlast
    have hlookup : s.table.lookup (s.qualify entity.text) = some file.path := by
      rw [hname]
      exact (SymbolTable.lookup_build_eq_some_iff files platform).mpr ⟨file, hlast.congr hdeclares, rfl⟩
    have hplatform : s.table.isPlatform file.path = false := by
      obtain ⟨_, _, _, hp, _⟩ := hlast
      rw [SymbolTable.isPlatform, SymbolTable.platform_build]
      exact hp
    refine ⟨?_, ?_⟩
    · rw [typeName_reference_of_some hlookup, hname, QualifiedName.symbolName_within _ hf]
    · have himport := s.import?_reference entity.text
      rw [hlookup, Option.bind_some, hplatform, Bool.or_false, hname] at himport
      split at himport
      · next hsame => rw [importsAfter_of_none imports himport, if_pos hsame]
      · next hother => rw [importsAfter_of_some imports himport, if_neg hother]
  · intro hnone
    have hlookup : s.table.lookup (s.qualify entity.text) = none := by
      rw [hname]
      exact (SymbolTable.lookup_build_eq_none_iff files platform).mpr (hnone.congr hdeclares)
    refine ⟨typeName_reference_of_none hlookup, importsAfter_of_none imports ?_⟩
    rw [import?_reference, hlookup]
    rfl

end

/-- Files that declare one type twice, in the same namespaces, between platform files that declare it too. -/
def redeclaringFiles : List DeclarationFile :=
  [⟨⟨"in/lib.dom.d.ts"⟩, [.namespaceItem "ol" [.namespaceItem "proj" [.declaration (.interface "Projection")]]]⟩,
   ⟨⟨"in/ol/map.d.ts"⟩, [.namespaceItem "ol" [.namespaceItem "proj" [.declaration (.classDecl ⟨"Projection", []⟩)]]]⟩,
   ⟨⟨"in/ol/proj.d.ts"⟩, [.namespaceItem "ol"
     [.namespaceItem "proj" [.declaration (.interface "Projection")], .declaration (.function ⟨"get", [], none⟩)]]⟩,
   ⟨⟨"in/lib.es.d.ts"⟩, [.namespaceItem "ol" [.namespaceItem "proj" [.declaration (.interface "Projection")]]]⟩]

/-- Seen from the first of the two files, a reference through an inner namespace resolves to the second; the function of
the outer namespace is no type. -/
theorem Scope.typeName_reference_iff_declared_redeclared :
    let s : Scope := ⟨SymbolTable.build redeclaringFiles {}, ⟨"in/ol/map.d.ts"⟩, ["ol"]⟩
    let projection := TypeNode.ofExpr (.reference (.member (.name "proj") "Projection"))
    let get := TypeNode.ofExpr (.reference (.name "get"))
    (s.typeName projection = "Projection" ∧
      s.importsAfter ["./a.dart"] projection = ["./a.dart", "./ol/proj/projection.dart"]) ∧
    s.typeName get = "JSObject" ∧ s.importsAfter ["./a.dart"] get = ["./a.dart"] := by
  have hfiles : ∀ file ∈ redeclaringFiles, file.PointFree := by decide
  have hprojection := typeName_reference_iff_declared redeclaringFiles {} ["ol"] ⟨"in/ol/map.d.ts"⟩ ["./a.dart"]
    (.member (.name "proj") "Projection") hfiles (by decide) (by decide) (by decide)
  have hget := typeName_reference_iff_declared redeclaringFiles {} ["ol"] ⟨"in/ol/map.d.ts"⟩ ["./a.dart"]
    (.name "get") hfiles (by decide) (by decide) (by decide)
  have hlast : PlatformFilter.IsLast {} (·.DeclaresTypeAt ["ol", "proj"] "Projection") redeclaringFiles
      redeclaringFiles[2] :=
    ⟨redeclaringFiles.take 2, redeclaringFiles.drop 3, rfl, by decide, by decide, by decide⟩
  exact ⟨hprojection.1 _ hlast, hget.2 (by decide)⟩

end InteropBindings
