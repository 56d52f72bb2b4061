import InteropBindings.Proofs.Output.Coverage
import InteropBindings.Proofs.Output.ImportPaths
import InteropBindings.Proofs.Symbol.Resolution

/-!
# What imports lead to

The import of a symbol is spelled from its namespaces and its name. Seen from the output root it leads to the path of
the binding of the symbol, if the symbol has namespaces (`OutputLayout.target_importPath`). There need not be a file:

- a record is made for whatever has a binding, and is never empty (`OutputRecords.exists_record_iff`);
- interfaces are symbols without a binding, so the import of an interface leads nowhere unless something else is bound
  there (`OutputRecords.route_import_leads_iff`).
-/

namespace InteropBindings

open Text InteropBindings.Path

/-! ## Files with identifiers -/

/-- All names that a file declares, and the namespaces around them, are identifiers. -/
def DeclarationFile.HasIdentifiers (file : DeclarationFile) : Prop :=
  ∀ around decl, file.Declares around decl → (∀ s ∈ around, IsIdentifier s) ∧ IsIdentifier decl.name

theorem DeclarationFile.hasIdentifiers_iff {file : DeclarationFile} :
    file.HasIdentifiers ↔ ∀ l ∈ file.located, (∀ s ∈ l.around, IsIdentifier s) ∧ IsIdentifier l.declaration.name := by
  constructor
  · intro h l hl
    exact h l.around l.declaration (mem_located.mp hl).2
  · intro h around decl hd
    exact h ⟨file.path, around, decl⟩ (mem_located.mpr ⟨rfl, hd⟩)

instance {file : DeclarationFile} : Decidable file.HasIdentifiers :=
  decidable_of_iff _ DeclarationFile.hasIdentifiers_iff.symm

/-- Whether a file declares a class, a function or a type alias of a qualified name, at any depth. -/
def DeclarationFile.DeclaresBound (file : DeclarationFile) (q : QualifiedName) : Prop :=
  ∃ around decl, file.Declares around decl ∧ decl.isBound = true ∧ .within around decl.name = q

/-! ## Targets of imports -/

variable {around : NamespacePath} {name : String}

theorem names_within (haround : ∀ s ∈ around, IsIdentifier s) (hname : IsIdentifier name) :
    (QualifiedName.within around name).namespaceSegments = around ∧
      (QualifiedName.within around name).symbolName = name :=
  QualifiedName.names_within (fun s hs => (haround s hs).isUnmarked.pointFree) hname.isUnmarked.pointFree

/-- The import of a symbol in namespaces that are identifiers leads to the path of its binding. -/
theorem OutputLayout.target_importPath (layout : OutputLayout) (hne : around ≠ [])
    (haround : ∀ s ∈ around, IsIdentifier s) (hname : IsIdentifier name) (source : Path) :
    layout.target (importPath (.within around name)) = layout.outputPath name around source :=
  layout.target_importPath_of_isUnmarked hne (fun s hs => (haround s hs).isUnmarked) hname.isUnmarked source

/-! ## Imports of a run -/

/-- What a reference outside finds in the table is declared by a file. -/
theorem Scope.RefersOutside.exists_declaresType {files : List DeclarationFile} {platform : PlatformFilter} {s : Scope}
    {t : TypeNode} {q : QualifiedName} (h : s.RefersOutside t q) (htable : s.table = .build files platform) :
    ∃ file ∈ files, platform.isPlatform file.path = false ∧ file.DeclaresType q := by
  obtain ⟨_, path, _, _, hlookup, _, _⟩ := h
  rw [htable, SymbolTable.lookup_build_eq_some_iff] at hlookup
  obtain ⟨file, ⟨before, after, hfiles, hp, hd, _⟩, _⟩ := hlookup
  exact ⟨file, hfiles ▸ by simp, hp, hd⟩

/-- What is shown and stands in another file is imported. -/
theorem OutputRecord.Represents.mem_imports_of_shows {table : SymbolTable} {ls : List Located} {r : OutputRecord}
    (h : r.Represents table ls) {l : Located} {t : TypeNode} {q : QualifiedName} (hshown : Shows ls l t)
    (hq : (OutputRecords.scopeOf table l).RefersOutside t q) : importPath q ∈ r.imports := by
  obtain ⟨block, hblock, ht⟩ := shows_iff_annotated.mp hshown
  rw [h.mem_imports_iff]
  exact ⟨block, hblock, Block.mem_imports_iff.mpr ⟨l, t, q, ht, hq, rfl⟩⟩

namespace OutputRecords

variable {files : List DeclarationFile} {platform : PlatformFilter}

/-- **What imports lead to.** Where the names that files declare are identifiers, let a record of their run show a type
that refers to a symbol of another file, and let the symbol have namespaces. Then the record imports it, some file
declares the symbol, and from the output root the import leads to the path that bindings of the symbol are written to,
whatever the source file. When the symbol is declared as a class, a function or a type alias, there is a record there,
and it is not empty. In any case there is one exactly when something is bound at this path; so the import of what is
only declared as an interface leads nowhere, unless another symbol is bound there. -/
theorem route_import_leads_iff (layout : OutputLayout) (hfiles : ∀ file ∈ files, file.HasIdentifiers) :
    let table := SymbolTable.build files platform
    let records := route files table layout
    ∀ path r l t q, records.get? path = some r → Shows (sentTo table layout files path) l t →
      (scopeOf table l).RefersOutside t q → q.namespaceSegments ≠ [] →
      let key := layout.target (importPath q)
      importPath q ∈ r.imports ∧
      (∃ file ∈ files, platform.isPlatform file.path = false ∧ file.DeclaresType q) ∧
      (∀ source, key = layout.outputPath q.symbolName q.namespaceSegments source) ∧
      ((∃ file ∈ files, platform.isPlatform file.path = false ∧ file.DeclaresBound q) →
        ∃ r', records.get? key = some r' ∧ r'.isEmpty = false) ∧
      ((∃ r', records.get? key = some r' ∧ r'.isEmpty = false) ↔
        ∃ file ∈ files, platform.isPlatform file.path = false ∧ file.BindsAt layout key) := by
  intro table records path r l t q hr hshown hrefers hsegments key
  have himport : importPath q ∈ r.imports := (represents_of_get?_route hr).mem_imports_of_shows hshown hrefers
  have htable : (scopeOf table l).table = .build files platform := rfl
  obtain ⟨file, hfile, hp, hdeclares⟩ := hrefers.exists_declaresType htable
  have hrecord : (∃ r', records.get? key = some r' ∧ r'.isEmpty = false) ↔
      ∃ file ∈ files, table.isPlatform file.path = false ∧ file.BindsAt layout key := exists_record_iff
  simp only [SymbolTable.isPlatform, table, SymbolTable.platform_build] at hrecord
  obtain ⟨around, decl, hd, _, hq⟩ := id hdeclares
  obtain ⟨haround, hname⟩ := hfiles file hfile around decl hd
  obtain ⟨hin, hsymbol⟩ := names_within haround hname
  rw [hq] at hin hsymbol
  have hkey : ∀ source, key = layout.outputPath q.symbolName q.namespaceSegments source := by
    intro source
    rw [hin, hsymbol]
    show layout.target (importPath q) = _
    rw [← hq]
    exact layout.target_importPath (hin ▸ hsegments) haround hname source
  refine ⟨himport, ⟨file, hfile, hp, hdeclares⟩, hkey, ?_, hrecord⟩
  rintro ⟨file', hfile', hp', around', decl', hd', hb', hq'⟩
  obtain ⟨haround', hname'⟩ := hfiles file' hfile' around' decl' hd'
  obtain ⟨hin', hsymbol'⟩ := names_within haround' hname'
  rw [hq'] at hin' hsymbol'
  refine hrecord.mpr ⟨file', hfile', hp', around', decl', hd', hb', ?_⟩
  rw [← hin', ← hsymbol']
  exact (hkey file'.path).symm

/-- A class whose members refer to a class and to an interface of another file. -/
def optionFiles : List DeclarationFile :=
  [⟨⟨"in/view.d.ts"⟩, [.namespaceItem "ol" [.declaration (.classDecl ⟨"View", []⟩),
    .declaration (.interface "Options")]]⟩,
   ⟨⟨"in/map.d.ts"⟩, [.namespaceItem "ol"
     [.declaration (.classDecl ⟨"Map", [.method "getView" [] (some (.reference "View")),
     .method "setOptions" [⟨"options", some (.reference "Options"), false⟩] none]⟩)]]⟩]

/-- What the members of the class show. -/
theorem shows_optionFiles :
    let table := SymbolTable.build optionFiles {}
    let layout : OutputLayout := ⟨⟨"in"⟩, ⟨"out"⟩⟩
    ∃ l, (Shows (sentTo table layout optionFiles "out/ol/map.dart") l (.reference "View") ∧
        (scopeOf table l).RefersOutside (.reference "View") ⟨"ol.View"⟩) ∧
      Shows (sentTo table layout optionFiles "out/ol/map.dart") l (.reference "Options") ∧
        (scopeOf table l).RefersOutside (.reference "Options") ⟨"ol.Options"⟩ := by
  intro table layout
  let getView : Member := .method "getView" [] (some (.reference "View"))
  let setOptions : Member := .method "setOptions" [⟨"options", some (.reference "Options"), false⟩] none
  let l : Located := ⟨⟨"in/map.d.ts"⟩, ["ol"], .classDecl ⟨"Map", [getView, setOptions]⟩⟩
  have hview : Shows (sentTo table layout optionFiles "out/ol/map.dart") l (.reference "View") :=
    .bound (b := ⟨l, .member getView⟩) (by decide) List.mem_cons_self
  have hoptions : Shows (sentTo table layout optionFiles "out/ol/map.dart") l (.reference "Options") :=
    .bound (b := ⟨l, .member setOptions⟩) (by decide) List.mem_cons_self
  exact ⟨l, ⟨hview, "View", ⟨"in/view.d.ts"⟩, rfl, by decide, by decide, by decide, by decide⟩,
    hoptions, "Options", ⟨"in/view.d.ts"⟩, rfl, by decide, by decide, by decide, by decide⟩

/-- The import of the class leads to its record. -/
theorem route_import_leads_iff_view :
    let table := SymbolTable.build optionFiles {}
    let layout : OutputLayout := ⟨⟨"in"⟩, ⟨"out"⟩⟩
    ∃ r r', (route optionFiles table layout).get? "out/ol/map.dart" = some r ∧ "./ol/view.dart" ∈ r.imports ∧
      (route optionFiles table layout).get? "out/ol/view.dart" = some r' ∧ r'.isEmpty = false := by
  intro table layout
  have hview : optionFiles[0].Declares ["ol"] (.classDecl ⟨"View", []⟩) :=
    ⟨_, List.mem_cons_self, .inside List.mem_cons_self (.here _)⟩
  have hdeclared : ∃ file ∈ optionFiles, PlatformFilter.isPlatform {} file.path = false ∧
    file.DeclaresBound ⟨"ol.View"⟩ :=
    ⟨optionFiles[0], List.mem_cons_self, by decide, ["ol"], .classDecl ⟨"View", []⟩, hview, rfl, by decide⟩
  have hfiles : ∀ file ∈ optionFiles, file.HasIdentifiers := by decide
  have hsent : sentTo table layout optionFiles "out/ol/map.dart" ≠ [] := by decide
  have hr := get?_route_of_sentTo_ne_nil table layout hsent
  obtain ⟨l, ⟨hshown, hrefers⟩, _⟩ := shows_optionFiles
  have himport : importPath ⟨"ol.View"⟩ = "./ol/view.dart" := by decide
  have htarget : layout.target "./ol/view.dart" = "out/ol/view.dart" := by decide
  obtain ⟨hmem, _, _, hbound, _⟩ := route_import_leads_iff layout hfiles _ _ l _ _ hr hshown hrefers (by decide)
  rw [himport] at hmem hbound
  rw [htarget] at hbound
  obtain ⟨r', hr', hempty⟩ := hbound hdeclared
  exact ⟨_, r', hr, hmem, hr', hempty⟩

/-- **The import of an interface leads nowhere**: the record of the class imports a file that the run has no record of.
-/
theorem not_imports_lead :
    let table := SymbolTable.build optionFiles {}
    let layout : OutputLayout := ⟨⟨"in"⟩, ⟨"out"⟩⟩
    (∀ file ∈ optionFiles, file.HasIdentifiers) ∧
    ∃ r l t q, (route optionFiles table layout).get? "out/ol/map.dart" = some r ∧
      Shows (sentTo table layout optionFiles "out/ol/map.dart") l t ∧ (scopeOf table l).RefersOutside t q ∧
      q.namespaceSegments ≠ [] ∧ importPath q = "./ol/options.dart" ∧ importPath q ∈ r.imports ∧
      layout.target (importPath q) = "out/ol/options.dart" ∧
      (route optionFiles table layout).get? "out/ol/options.dart" = none := by
  intro table layout
  have hsent : sentTo table layout optionFiles "out/ol/map.dart" ≠ [] := by decide
  have hr := get?_route_of_sentTo_ne_nil table layout hsent
  obtain ⟨l, _, hshown, hrefers⟩ := shows_optionFiles
  have himport := (represents_of_get?_route hr).mem_imports_of_shows hshown hrefers
  refine ⟨by decide, _, l, _, _, hr, hshown, hrefers, by decide, by decide, himport, by decide, ?_⟩
  have hnil : sentTo table layout optionFiles "out/ol/options.dart" = [] := by decide
  rw [get?_route, if_pos hnil]

end OutputRecords

end InteropBindings
