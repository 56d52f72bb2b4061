import InteropBindings.Proofs.Generation
import InteropBindings.Proofs.Output.Routing
import InteropBindings.Proofs.Symbol.Building

/-!
# Platform files

Platform files take no part in a run, wherever they stand among the files and whatever they declare.

- lists of files that differ in platform files only have the same table and the same records (`SymbolTable.build_congr`,
  `OutputRecords.route_congr`);
- no name of the table stands for a platform file (`SymbolTable.isPlatform_eq_false_of_mem_entries`), so what keeps the
  imports of platform files out of a binding never comes into play (`Scope.import?_eq_anyImport?`).

`Settings.generate_without_platformFiles` puts these together.
-/

namespace InteropBindings

/-- The files that are no platform files, in order. -/
def PlatformFilter.kept (platform : PlatformFilter) (files : List DeclarationFile) : List DeclarationFile :=
  files.filter fun file => !platform.isPlatform file.path

/-- Platform files can be taken away once only. -/
theorem PlatformFilter.kept_kept (platform : PlatformFilter) (files : List DeclarationFile) :
    platform.kept (platform.kept files) = platform.kept files := by
  rw [kept, kept, List.filter_filter]
  simp only [Bool.and_self]

/-! ## Tables -/

namespace SymbolTable

variable {platform : PlatformFilter} {files files' : List DeclarationFile}

/-- **The table** of files that differ in platform files only is the same. -/
theorem build_congr (h : platform.kept files = platform.kept files') :
    build files platform = build files' platform := by
  have hscanned : scanned files platform = scanned files' platform := congrArg (List.flatMap symbolsOf) h
  have hfiles : (build files platform).files = (build files' platform).files := by
    rw [build, build, files_foldl_scan, files_foldl_scan, hscanned]
  have hplatform : (build files platform).platform = (build files' platform).platform := by
    rw [platform_build, platform_build]
  cases hbuild : build files platform with
  | mk entries filter =>
    rw [hbuild] at hfiles hplatform
    cases hfiles
    cases hplatform
    rfl

/-- **No name of a table** stands for a platform file. -/
theorem isPlatform_eq_false_of_lookup {name : QualifiedName} {path : Path}
    (h : (build files platform).lookup name = some path) :
    platform.isPlatform path = false := by
  obtain ⟨file, ⟨_, _, _, hp, _⟩, rfl⟩ := (lookup_build_eq_some_iff files platform).mp h
  exact hp

theorem isPlatform_eq_false_of_mem_entries {name : QualifiedName} {path : Path}
    (h : (name, path) ∈ (build files platform).files.entries) : platform.isPlatform path = false :=
  isPlatform_eq_false_of_lookup ((Ledger.mem_entries_iff (nodup_keys_build files platform)).mp h)

end SymbolTable

/-! ## Records -/

namespace OutputRecords

variable {table : SymbolTable} {files files' : List DeclarationFile}

/-- **The records** of files that differ in platform files only are the same. -/
theorem route_congr (h : table.platform.kept files = table.platform.kept files') (layout : OutputLayout) :
    route files table layout = route files' table layout := by
  have hvisited : visited table files = visited table files' := by
    rw [visited_eq_flatMap, visited_eq_flatMap]
    exact congrArg (List.flatMap boundOf) h
  rw [route_eq_foldl, route_eq_foldl, hvisited]

end OutputRecords

/-! ## Imports -/

/-- The import that a type needs when platform files are treated as any others. -/
def Scope.anyImport? (s : Scope) (t : TypeNode) : Option String := do
  let name := s.qualify (← t.referenced?)
  let file ← s.table.lookup name
  if file.same s.file then none else some (importPath name)

/-- **Imports are never kept out** where no name of the table stands for a platform file. -/
theorem Scope.import?_eq_anyImport? {s : Scope}
    (h : ∀ name path, s.table.lookup name = some path → s.table.isPlatform path = false) (t : TypeNode) :
    s.import? t = s.anyImport? t := by
  rw [import?, anyImport?]
  refine Option.bind_congr fun name _ => Option.bind_congr fun file hfile => ?_
  rw [h _ file hfile, Bool.or_false]

/-! ## Runs -/

namespace Settings

/-- What is generated from files that differ in platform files only is the same, if there are any files at all. -/
theorem generate_eq_ok_of_kept_eq {s : Settings} {files files' : List DeclarationFile} {g : Generated}
    (h : s.platform.kept files' = s.platform.kept files) (hne : files' ≠ []) (hg : s.generate files = .ok g) :
    s.generate files' = .ok g := by
  obtain ⟨input, output, hdirectories, _, rfl⟩ := generate_eq_ok_iff.mp hg
  refine generate_eq_ok_iff.mpr ⟨input, output, hdirectories, hne, ?_⟩
  have hroute : OutputRecords.route files' (SymbolTable.build files s.platform) ⟨input, output⟩ =
      OutputRecords.route files (SymbolTable.build files s.platform) ⟨input, output⟩ :=
    OutputRecords.route_congr (by rwa [SymbolTable.platform_build]) _
  rw [SymbolTable.build_congr h, hroute]

/-- **Platform files make no difference.** With both directories set, files of which one at least is no platform file
give the same table, entry by entry, and the same records as they do without the platform files among them. And whatever
is generated, no entry of its table is that of a platform file, so wherever a type stands, the import that it needs is
the one that it would need if platform files were treated as any others. -/
theorem generate_without_platformFiles (s : Settings) (files : List DeclarationFile) :
    (∀ input output, s.directories = .ok (input, output) → s.platform.kept files ≠ [] →
      ∃ g, s.generate files = .ok g ∧ s.generate (s.platform.kept files) = .ok g) ∧
    ∀ g, s.generate files = .ok g →
      (∀ name file, (name, file) ∈ g.symbols.files.entries → s.platform.isPlatform file = false) ∧
      ∀ current around t,
        Scope.import? ⟨g.symbols, current, around⟩ t = Scope.anyImport? ⟨g.symbols, current, around⟩ t := by
  constructor
  · intro input output hdirectories hkept
    have hne : files ≠ [] := by
      rintro rfl
      exact hkept rfl
    have hg := generate_eq_ok_iff.mpr ⟨input, output, hdirectories, hne, rfl⟩
    exact ⟨_, hg, generate_eq_ok_of_kept_eq (s.platform.kept_kept files) hkept hg⟩
  · intro g hg
    obtain ⟨input, output, _, _, rfl⟩ := generate_eq_ok_iff.mp hg
    refine ⟨fun name file hentry => SymbolTable.isPlatform_eq_false_of_mem_entries hentry, fun current around t => ?_⟩
    refine Scope.import?_eq_anyImport? (fun name path hlookup => ?_) t
    rw [SymbolTable.isPlatform, SymbolTable.platform_build]
    exact SymbolTable.isPlatform_eq_false_of_lookup hlookup

/-- A class in two files that a platform file between them declares too, and a platform file with a class of its own at
the end. -/
def frameFiles : List DeclarationFile :=
  [⟨⟨"in/map.d.ts"⟩, [.namespaceItem "ol"
    [.declaration (.classDecl ⟨"Map", [.method "frame" [] (some (.reference "Frame"))]⟩)]]⟩,
   ⟨⟨"in/lib.dom.d.ts"⟩, [.namespaceItem "ol" [.declaration (.classDecl ⟨"Frame", [.method "hide" [] none]⟩)]]⟩,
   ⟨⟨"in/frame.d.ts"⟩, [.namespaceItem "ol" [.declaration (.classDecl ⟨"Frame", []⟩)]]⟩,
   ⟨⟨"in/lib.es.d.ts"⟩, [.declaration (.classDecl ⟨"Map", []⟩)]⟩]

/-- Two files remain, which give the same two records, and the class needs its import. -/
theorem generate_without_platformFiles_frameFiles :
    let s := Settings.between ⟨"in"⟩ ⟨"out"⟩
    (s.platform.kept frameFiles).length = 2 ∧
      ∃ g, s.generate frameFiles = .ok g ∧ s.generate (s.platform.kept frameFiles) = .ok g ∧
        Scope.import? ⟨g.symbols, ⟨"in/map.d.ts"⟩, ["ol"]⟩ (.reference "Frame") =
          Scope.anyImport? ⟨g.symbols, ⟨"in/map.d.ts"⟩, ["ol"]⟩ (.reference "Frame") := by
  intro s
  obtain ⟨hsame, himports⟩ := generate_without_platformFiles s frameFiles
  have hkept : s.platform.kept frameFiles = [frameFiles[0], frameFiles[2]] := by rfl
  obtain ⟨g, hg, hg'⟩ := hsame _ _ rfl (by rw [hkept]; exact List.cons_ne_nil _ _)
  exact ⟨by rw [hkept]; rfl, g, hg, hg', (himports g hg).2 _ _ _⟩

end Settings

end InteropBindings
