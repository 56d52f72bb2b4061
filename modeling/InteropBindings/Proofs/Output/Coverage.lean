import InteropBindings.Proofs.Output.Aliases
import InteropBindings.Proofs.Output.Independence
import InteropBindings.Proofs.Symbol.Building

/-!
# Symbols and records of the same declarations

The table and the records are filled by two walks over the files, which look for different kinds of declarations. No
declaration falls between the two:

- the records stand at the paths of all classes, functions and type aliases, in the order in which these paths first
  come up (`keys_route_eq_outputPaths`), and none of them is empty (`isEmpty_of_get?_route`);
- a class or a type alias is both a symbol and bound, so its name is in the table and its path among the records
  (`SymbolTable.contains_build_of_declares`, `exists_record_iff`).

`OutputRecords.route_covers_declarations` puts these together.
-/

namespace InteropBindings

/-! ## Paths in the order of a file -/

mutual

/-- The paths of the bindings of an item inside some namespaces, in the order in which it is written. -/
def Item.outputPaths (layout : OutputLayout) (file : Path) (around : NamespacePath) : Item → List String
  | .declaration (.classDecl c) => [layout.outputPath c.name around file]
  | .declaration (.function f) => [layout.outputPath f.name around file]
  | .declaration (.alias a) => [layout.outputPath a.name around file]
  | .declaration (.interface _) => []
  | .namespaceItem name body => outputPathsAll layout file (around ++ [name]) body

/-- The paths of the bindings of items inside some namespaces, one item after the other. -/
def Item.outputPathsAll (layout : OutputLayout) (file : Path) (around : NamespacePath) : List Item → List String
  | [] => []
  | item :: items => item.outputPaths layout file around ++ outputPathsAll layout file around items

end

/-- The paths of the bindings of a file, in the order in which it is written. -/
def DeclarationFile.outputPaths (layout : OutputLayout) (file : DeclarationFile) : List String :=
  Item.outputPathsAll layout file.path [] file.items

mutual

/-- The paths of an item are those of its declarations with a binding. -/
theorem Item.outputPaths_eq_map (layout : OutputLayout) : ∀ (file : Path) (around : NamespacePath) (item : Item),
    item.outputPaths layout file around =
      ((item.located file around).filter fun l => l.declaration.isBound).map layout.pathOf
  | file, around, .declaration decl => by
    rw [Item.located]
    cases decl <;> rw [Item.outputPaths] <;> rfl
  | file, around, .namespaceItem name body => by
    rw [Item.outputPaths, Item.located]
    exact Item.outputPathsAll_eq_map layout file (around ++ [name]) body

theorem Item.outputPathsAll_eq_map (layout : OutputLayout) :
    ∀ (file : Path) (around : NamespacePath) (items : List Item),
    Item.outputPathsAll layout file around items =
      ((Item.locatedAll file around items).filter fun l => l.declaration.isBound).map layout.pathOf
  | file, around, [] => by
    rw [Item.outputPathsAll, Item.locatedAll]
    rfl
  | file, around, item :: items => by
    rw [Item.outputPathsAll, Item.locatedAll, List.filter_append, List.map_append,
      Item.outputPaths_eq_map layout file around item, Item.outputPathsAll_eq_map layout file around items]

end

/-! ## Records with text -/

/-- The first declaration with a binding has a block. -/
theorem Located.piece_ne_nil {all : List Located} {l : Located} (hl : l ∈ all) (hb : l.declaration.isBound = true) :
    l.piece all [] ≠ [] := by
  cases hd : l.declaration with
  | classDecl c => simp [piece, hd]
  | interface name =>
    rw [hd] at hb
    cases hb
  | function f => simp [piece, hd, fresh_function [] hd, signaturesIn]
  | «alias» a =>
    have hany : all.any (aliases l.qualifiedName) = true := List.any_eq_true.mpr ⟨l, hl, by simp [aliases_alias hd]⟩
    obtain ⟨last, a', _, _, heq⟩ := exists_lastAlias_eq hany
    simp [piece, hd, heq]

namespace OutputRecords

variable {files : List DeclarationFile} {table : SymbolTable} {layout : OutputLayout} {path : String}

/-- **No record of a run is empty.** -/
theorem isEmpty_of_get?_route {r : OutputRecord} (h : (route files table layout).get? path = some r) :
    r.isEmpty = false := by
  have hr := represents_of_get?_route h
  have hsent : sentTo table layout files path ≠ [] := by
    intro hnil
    rw [get?_route, if_pos hnil] at h
    cases h
  obtain ⟨l, rest, hls⟩ := List.exists_cons_of_ne_nil hsent
  have hl : l ∈ sentTo table layout files path := hls ▸ List.mem_cons_self
  obtain ⟨_, _, _, _, _, hbound⟩ := (mem_visited table).mp (List.mem_filter.mp hl).1
  have hfirst : l.piece (sentTo table layout files path) [] ∈ layersOf (sentTo table layout files path) := by
    refine List.mem_filter.mpr ⟨?_, by simpa using Located.piece_ne_nil hl hbound⟩
    rw [piecesOf, hls, piecesAlong]
    exact List.mem_cons_self
  rw [OutputRecord.isEmpty, hr.chunks, List.all_eq_false]
  refine ⟨_, List.mem_map_of_mem hfirst, ?_⟩
  rw [OutputRecord.isEmpty_code_chunkOf fun b hb => Located.text_ne_empty_of_mem_piece table hb]
  simpa using Located.piece_ne_nil hl hbound

/-- All records of a run have text. -/
theorem countWritten_route : (route files table layout).countWritten = (route files table layout).size := by
  have hall : (route files table layout).values.filter (fun r => !r.isEmpty) = (route files table layout).values := by
    rw [List.filter_eq_self]
    intro r hr
    obtain ⟨⟨path, r⟩, hentry, rfl⟩ := List.mem_map.mp hr
    simp [isEmpty_of_get?_route (get?_route_of_mem_entries hentry)]
  rw [countWritten, hall, Ledger.values, List.length_map, Ledger.size]

/-- There is a record where something is bound. -/
theorem exists_record_iff : (∃ r, (route files table layout).get? path = some r ∧ r.isEmpty = false) ↔
    ∃ file ∈ files, table.isPlatform file.path = false ∧ file.BindsAt layout path := by
  rw [← sentTo_ne_nil_iff]
  constructor
  · rintro ⟨r, hr, _⟩ hnil
    rw [get?_route, if_pos hnil] at hr
    cases hr
  · intro hsent
    have hr := get?_route_of_sentTo_ne_nil table layout hsent
    exact ⟨_, hr, isEmpty_of_get?_route hr⟩

/-- **The records stand at the paths of the bindings** of all files that are no platform files, in the order in which
these paths first come up. -/
theorem keys_route_eq_outputPaths (files : List DeclarationFile) (table : SymbolTable) (layout : OutputLayout) :
    (route files table layout).keys = ((files.filter fun file => !table.isPlatform file.path).flatMap
      (DeclarationFile.outputPaths layout)).eraseDups := by
  have hpaths : ∀ file : DeclarationFile, (boundOf file).map layout.pathOf = file.outputPaths layout :=
    fun file => (Item.outputPathsAll_eq_map layout file.path [] file.items).symm
  rw [keys_route, visited_eq_flatMap, List.map_flatMap]
  simp only [hpaths]

end OutputRecords

/-! ## Symbols that are bound -/

/-- Whether a declaration makes a symbol and has a binding as well: a class or a type alias. -/
def Declaration.isBoundType : Declaration → Bool
  | .classDecl _ | .alias _ => true
  | .interface _ | .function _ => false

theorem Declaration.isType_of_isBoundType {decl : Declaration} (h : decl.isBoundType = true) : decl.isType = true := by
  cases decl with
  | classDecl c => rfl
  | interface name => rfl
  | function f => cases h
  | «alias» a => rfl

theorem Declaration.isBound_of_isBoundType {decl : Declaration} (h : decl.isBoundType = true) :
    decl.isBound = true := by
  cases decl with
  | classDecl c => rfl
  | interface name => cases h
  | function f => rfl
  | «alias» a => rfl

/-- What a file declares as a type is in the table of all files, unless it is a platform file. -/
theorem SymbolTable.contains_build_of_declares {files : List DeclarationFile} {platform : PlatformFilter}
    {file : DeclarationFile} {around : NamespacePath} {decl : Declaration} (hfile : file ∈ files)
    (hp : platform.isPlatform file.path = false) (hd : file.Declares around decl) (ht : decl.isType = true) :
    (build files platform).contains (.within around decl.name) = true := by
  rw [contains, Ledger.contains, Option.isSome_iff_ne_none]
  intro hnone
  exact (lookup_build_eq_none_iff files platform).mp hnone file hfile hp ⟨around, decl, hd, ht, rfl⟩

namespace OutputRecords

/-- **No declaration is dropped.** With the table of some files and any filter for platform files:

- the records stand at the paths of all classes, functions and type aliases, platform files apart, each path once and in
  the order in which it first comes up;
- no record is empty, so all of them are counted;
- the name of every class or type alias is in the table;
- where a name of the table is declared as a class or a type alias, there is a record at the path of that declaration.
  -/
theorem route_covers_declarations (files : List DeclarationFile) (platform : PlatformFilter) (layout : OutputLayout) :
    let table := SymbolTable.build files platform
    let records := route files table layout
    records.keys = ((files.filter fun file => !platform.isPlatform file.path).flatMap
      (DeclarationFile.outputPaths layout)).eraseDups ∧
    (∀ path r, (path, r) ∈ records.entries → r.isEmpty = false) ∧
    records.countWritten = records.size ∧
    (∀ file ∈ files, platform.isPlatform file.path = false → ∀ around decl, file.Declares around decl →
      decl.isBoundType = true → table.contains (.within around decl.name) = true) ∧
    ∀ name defining, (name, defining) ∈ table.files.entries →
      ∀ file ∈ files, platform.isPlatform file.path = false → ∀ around decl, file.Declares around decl →
        decl.isBoundType = true → .within around decl.name = name →
          ∃ r, records.get? (layout.outputPath decl.name around file.path) = some r := by
  intro table records
  have hplatform : ∀ path, table.isPlatform path = platform.isPlatform path := fun path => by
    rw [SymbolTable.isPlatform, SymbolTable.platform_build]
  refine ⟨?_, fun path r hentry => ?_, countWritten_route, fun file hfile hp around decl hd ht => ?_, ?_⟩
  · rw [keys_route_eq_outputPaths]
    simp only [hplatform]
  · exact isEmpty_of_get?_route (get?_route_of_mem_entries hentry)
  · exact SymbolTable.contains_build_of_declares hfile hp hd (Declaration.isType_of_isBoundType ht)
  · intro name defining _ file hfile hp around decl hd ht _
    have hbinds : file.BindsAt layout (layout.outputPath decl.name around file.path) :=
      ⟨around, decl, hd, Declaration.isBound_of_isBoundType ht, rfl⟩
    obtain ⟨r, hr, _⟩ := exists_record_iff.mpr ⟨file, hfile, (hplatform file.path).trans hp, hbinds⟩
    exact ⟨r, hr⟩

/-- A class that a platform file declares too, and that the last file declares as an interface. -/
def tileFiles : List DeclarationFile :=
  [⟨⟨"in/lib.dom.d.ts"⟩, [.namespaceItem "ol" [.declaration (.classDecl ⟨"Tile", []⟩)]]⟩,
   ⟨⟨"in/tile.d.ts"⟩, [.namespaceItem "ol" [.declaration (.interface "Options"), .namespaceItem "layer"
     [.declaration (.function ⟨"load", [], none⟩)], .declaration (.classDecl ⟨"Tile", []⟩)]]⟩,
   ⟨⟨"in/size.d.ts"⟩, [.declaration (.alias ⟨"Size", .keyword .number⟩), .namespaceItem "ol"
     [.declaration (.interface "Tile"), .declaration (.alias ⟨"TILE", .keyword .string⟩)]]⟩]

/-- The table says that the interface comes last, and the class has its record all the same. -/
theorem route_covers_declarations_tileFiles :
    let table := SymbolTable.build tileFiles {}
    let records := route tileFiles table ⟨⟨"in"⟩, ⟨"out"⟩⟩
    records.keys = ["out/ol/layer/load.dart", "out/ol/tile.dart", "out/size/size.dart"] ∧ records.countWritten = 3 ∧
      (⟨"ol.Tile"⟩, ⟨"in/size.d.ts"⟩) ∈ table.files.entries ∧ table.contains ⟨"ol.Tile"⟩ = true ∧
      ∃ r, records.get? "out/ol/tile.dart" = some r := by
  intro table records
  obtain ⟨hkeys, _, hcount, htable, hrecords⟩ := route_covers_declarations tileFiles {} ⟨⟨"in"⟩, ⟨"out"⟩⟩
  have hfile : tileFiles[1] ∈ tileFiles := List.getElem_mem _
  have hp : PlatformFilter.isPlatform {} tileFiles[1].path = false := by decide
  have hd : tileFiles[1].Declares ["ol"] (.classDecl ⟨"Tile", []⟩) :=
    ⟨_, List.mem_cons_self, .inside (by simp) (.here _)⟩
  have hname : QualifiedName.within ["ol"] "Tile" = ⟨"ol.Tile"⟩ := by decide
  have hpath : OutputLayout.outputPath ⟨⟨"in"⟩, ⟨"out"⟩⟩ "Tile" ["ol"] tileFiles[1].path =
    "out/ol/tile.dart" := by decide
  have hentry : (⟨"ol.Tile"⟩, ⟨"in/size.d.ts"⟩) ∈ table.files.entries := by decide +kernel
  have hpaths : records.keys = ["out/ol/layer/load.dart", "out/ol/tile.dart", "out/size/size.dart"] := by
    rw [hkeys]
    decide +kernel
  obtain ⟨r, hr⟩ := hrecords _ _ hentry _ hfile hp _ _ hd rfl hname
  have hcontains := htable _ hfile hp _ _ hd rfl
  rw [Declaration.name, hname] at hcontains
  rw [Declaration.name, hpath] at hr
  refine ⟨hpaths, ?_, hentry, hcontains, r, hr⟩
  rw [hcount, ← Ledger.length_keys, hpaths]
  rfl

end OutputRecords

end InteropBindings
