import InteropBindings.Proofs.Output.Routing

/-!
# Independence of records

A run makes all records in one pass over the declarations of all files. Each record could as well be made on its own:

- `OutputRecord.gather` walks over the files with one record at hand and takes in only what belongs at the path of this
  record;
- the record that a run has at a path is the one gathered for the path (`OutputRecord.gather_eq_addAll`);
- a declaration that belongs at another path may stand anywhere in any file and makes no difference
  (`OutputRecords.sentTo_insert`).

`OutputRecords.route_records_independent` puts these together.
-/

namespace InteropBindings

/-! ## Gathering one record -/

namespace OutputRecord

section

variable (table : SymbolTable) (layout : OutputLayout) (path : String)

/-- A record after a declaration, which it takes in if the binding of the declaration belongs at the path. -/
def takeIn (r : OutputRecord) (l : Located) : OutputRecord :=
  if l.declaration.isBound = true ∧ layout.outputPath l.declaration.name l.around l.file = path then
    r.add ⟨table, l.file, l.around⟩ l.declaration
  else r

mutual

/-- A record after an item inside some namespaces. -/
def gatherItem (file : Path) (around : NamespacePath) (r : OutputRecord) : Item → OutputRecord
  | .declaration decl => takeIn table layout path r ⟨file, around, decl⟩
  | .namespaceItem name body => gatherItems file (around ++ [name]) r body

/-- A record after items inside some namespaces, one after the other. -/
def gatherItems (file : Path) (around : NamespacePath) (r : OutputRecord) : List Item → OutputRecord
  | [] => r
  | item :: items => gatherItems file around (gatherItem file around r item) items

end

/-- A record after a file, unless it is a platform file. -/
def gatherFile (r : OutputRecord) (file : DeclarationFile) : OutputRecord :=
  if table.isPlatform file.path then r else gatherItems table layout path file.path [] r file.items

/-- The record of a path, made on its own. -/
def gather (files : List DeclarationFile) : OutputRecord := files.foldl (gatherFile table layout path) {}

end

variable {table : SymbolTable} {layout : OutputLayout} {path : String}

mutual

/-- Gathering an item goes through what it declares. -/
theorem gatherItem_eq_foldl : ∀ (file : Path) (around : NamespacePath) (r : OutputRecord) (item : Item),
    gatherItem table layout path file around r item = (item.located file around).foldl (takeIn table layout path) r
  | file, around, r, .declaration decl => by
    rw [gatherItem, Item.located]
    rfl
  | file, around, r, .namespaceItem name body => by
    rw [gatherItem, Item.located]
    exact gatherItems_eq_foldl file (around ++ [name]) r body

theorem gatherItems_eq_foldl : ∀ (file : Path) (around : NamespacePath) (r : OutputRecord) (items : List Item),
    gatherItems table layout path file around r items =
      (Item.locatedAll file around items).foldl (takeIn table layout path) r
  | file, around, r, [] => by
    rw [gatherItems, Item.locatedAll]
    rfl
  | file, around, r, item :: items => by
    rw [gatherItems, Item.locatedAll, List.foldl_append, gatherItem_eq_foldl file around r item]
    exact gatherItems_eq_foldl file around _ items

end

/-- Of some declarations those are taken in that belong at the path. -/
theorem foldl_takeIn (r : OutputRecord) (ls : List Located) :
    ls.foldl (takeIn table layout path) r =
      r.addAll table ((ls.filter fun l => l.declaration.isBound).filter fun l => layout.pathOf l = path) := by
  induction ls generalizing r with
  | nil => rfl
  | cons l ls ih =>
    rw [List.foldl_cons, ih]
    by_cases hb : l.declaration.isBound = true
    · by_cases hp : layout.pathOf l = path
      · have htake : takeIn table layout path r l = r.add (OutputRecords.scopeOf table l) l.declaration :=
          if_pos ⟨hb, hp⟩
        rw [htake, List.filter_cons_of_pos (by simpa using hb), List.filter_cons_of_pos (by simpa using hp)]
        rfl
      · have htake : takeIn table layout path r l = r := if_neg fun h => hp h.2
        rw [htake, List.filter_cons_of_pos (by simpa using hb), List.filter_cons_of_neg (by simpa using hp)]
    · have htake : takeIn table layout path r l = r := if_neg fun h => hb h.1
      rw [htake, List.filter_cons_of_neg (by simpa using hb)]

/-- **A gathered record is made from what is sent to its path.** -/
theorem gather_eq_addAll (files : List DeclarationFile) :
    gather table layout path files = addAll table {} (OutputRecords.sentTo table layout files path) := by
  suffices h : ∀ r, files.foldl (gatherFile table layout path) r =
      r.addAll table (OutputRecords.sentTo table layout files path) from h {}
  induction files with
  | nil => exact fun _ => rfl
  | cons file files ih =>
    intro r
    rw [List.foldl_cons, ih, OutputRecords.sentTo, OutputRecords.sentTo, OutputRecords.visited, OutputRecords.visited,
      List.flatMap_cons, List.filter_append, addAll, addAll, List.foldl_append, gatherFile]
    split
    · rfl
    · rw [gatherItems_eq_foldl, foldl_takeIn]
      rfl

end OutputRecord

/-! ## Declarations for other paths -/

/-- Items before and after a declaration is put among them, inside some namespaces and at any place there. -/
inductive Item.Inserted (decl : Declaration) : NamespacePath → List Item → List Item → Prop
  | here (xs ys : List Item) : Item.Inserted decl [] (xs ++ ys) (xs ++ .declaration decl :: ys)
  | inside (xs ys : List Item) {name : String} {inner : NamespacePath} {body body' : List Item} :
      Item.Inserted decl inner body body' →
        Item.Inserted decl (name :: inner) (xs ++ .namespaceItem name body :: ys)
          (xs ++ .namespaceItem name body' :: ys)

/-- The walk comes upon an inserted declaration once and is the same before and after it. -/
theorem Item.Inserted.locatedAll {decl : Declaration} {inner : NamespacePath} {items items' : List Item}
    (h : Item.Inserted decl inner items items') (file : Path) (around : NamespacePath) :
    ∃ pre post, Item.locatedAll file around items = pre ++ post ∧
      Item.locatedAll file around items' = pre ++ ⟨file, around ++ inner, decl⟩ :: post := by
  induction h generalizing around with
  | here xs ys =>
    refine ⟨Item.locatedAll file around xs, Item.locatedAll file around ys, ?_, ?_⟩
    · rw [Item.locatedAll_append]
    · rw [Item.locatedAll_append, Item.locatedAll, Item.located, List.append_nil]
      rfl
  | @inside xs ys name inner body body' _ ih =>
    obtain ⟨pre, post, hbody, hbody'⟩ := ih (around ++ [name])
    refine ⟨Item.locatedAll file around xs ++ pre, post ++ Item.locatedAll file around ys, ?_, ?_⟩
    · rw [Item.locatedAll_append, Item.locatedAll, Item.located, hbody]
      simp only [List.append_assoc]
    · rw [Item.locatedAll_append, Item.locatedAll, Item.located, hbody']
      simp only [List.append_assoc, List.cons_append, List.nil_append]

/-- Whether a file declares something whose binding belongs at a path. -/
def DeclarationFile.BindsAt (layout : OutputLayout) (path : String) (file : DeclarationFile) : Prop :=
  ∃ around decl, file.Declares around decl ∧ decl.isBound = true ∧ layout.outputPath decl.name around file.path = path

namespace OutputRecords

variable {table : SymbolTable} {layout : OutputLayout} {path : String}

/-- Something is sent to a path exactly when a file declares something that belongs there. -/
theorem sentTo_ne_nil_iff {files : List DeclarationFile} :
    sentTo table layout files path ≠ [] ↔
      ∃ file ∈ files, table.isPlatform file.path = false ∧ file.BindsAt layout path := by
  constructor
  · intro hne
    obtain ⟨l, hl⟩ := List.exists_mem_of_ne_nil _ hne
    obtain ⟨hvisited, hpath⟩ := List.mem_filter.mp hl
    obtain ⟨file, hfile, hp, hf, hd, hb⟩ := (mem_visited table).mp hvisited
    refine ⟨file, hfile, hp, l.around, l.declaration, hd, hb, ?_⟩
    rw [← hf]
    exact of_decide_eq_true hpath
  · rintro ⟨file, hfile, hp, around, decl, hd, hb, hpath⟩
    have hvisited : ⟨file.path, around, decl⟩ ∈ visited table files :=
      (mem_visited table).mpr ⟨file, hfile, hp, rfl, hd, hb⟩
    exact List.ne_nil_of_mem (List.mem_filter.mpr ⟨hvisited, decide_eq_true hpath⟩)

/-- A declaration that belongs elsewhere is not sent to a path, wherever it stands in a file. -/
theorem sentTo_insert {file : DeclarationFile} {items' : List Item} {around : NamespacePath} {decl : Declaration}
    (hitems : Item.Inserted decl around file.items items')
    (hpath : layout.outputPath decl.name around file.path ≠ path) (before after : List DeclarationFile) :
    sentTo table layout (before ++ { file with items := items' } :: after) path =
      sentTo table layout (before ++ file :: after) path := by
  obtain ⟨pre, post, hlocated, hlocated'⟩ := hitems.locatedAll file.path []
  have hne : layout.pathOf ⟨file.path, [] ++ around, decl⟩ ≠ path := hpath
  -- the declaration is sorted out by its path, whether or not it has a binding
  have hbound : (boundOf { file with items := items' }).filter (fun l => layout.pathOf l = path) =
      (boundOf file).filter fun l => layout.pathOf l = path := by
    simp only [boundOf, DeclarationFile.located, hlocated, hlocated', List.filter_append, List.filter_filter]
    rw [List.filter_cons_of_neg (by simp only [hne, decide_false, Bool.false_and]; exact Bool.false_ne_true)]
  simp only [sentTo, visited, List.flatMap_append, List.flatMap_cons, List.filter_append]
  split
  · rfl
  · rw [hbound]

/-- **Records do not depend on each other.** There is a record at a path exactly when a file, platform files apart,
declares something whose binding belongs there. The record is then the one that is gathered for this path alone: from an
empty record, out of the declarations that belong there, in the order in which they stand in the files. A declaration
that belongs at another path makes no difference, whichever file it is put into and wherever it stands there. -/
theorem route_records_independent (files : List DeclarationFile) (table : SymbolTable) (layout : OutputLayout)
    (path : String) :
    (∀ r, (route files table layout).get? path = some r ↔
      (∃ file ∈ files, table.isPlatform file.path = false ∧ file.BindsAt layout path) ∧
        r = OutputRecord.gather table layout path files) ∧
    ∀ before file after items' around decl, files = before ++ file :: after →
      Item.Inserted decl around file.items items' → layout.outputPath decl.name around file.path ≠ path →
        (route (before ++ { file with items := items' } :: after) table layout).get? path =
          (route files table layout).get? path := by
  constructor
  · intro r
    rw [get?_route, OutputRecord.gather_eq_addAll, ← sentTo_ne_nil_iff]
    split
    · next hnil => simp [hnil]
    · next hne => simp [hne, eq_comm]
  · rintro before file after items' around decl rfl hitems hpath
    rw [get?_route, get?_route, sentTo_insert hitems hpath]

/-- A class in a namespace of two files. -/
def mapFiles : List DeclarationFile :=
  [⟨⟨"in/a.d.ts"⟩, [.namespaceItem "app" [.declaration (.classDecl ⟨"Map", [.method "get" [] none]⟩)]]⟩,
   ⟨⟨"in/b.d.ts"⟩, [.namespaceItem "app" [.declaration (.classDecl ⟨"Map", [.method "set" [] none]⟩)]]⟩]

/-- A function between the two declarations of the class leaves the record of the class as it is. -/
theorem route_records_independent_functionBetween :
    let table := SymbolTable.build mapFiles {}
    let layout : OutputLayout := ⟨⟨"in"⟩, ⟨"out"⟩⟩
    let zoom : Item := .declaration (.function ⟨"zoom", [], none⟩)
    let map : Item := .declaration (.classDecl ⟨"Map", [.method "set" [] none]⟩)
    (route mapFiles table layout).get? "out/app/map.dart" =
        some (OutputRecord.gather table layout "out/app/map.dart" mapFiles) ∧
      (route [mapFiles[0], ⟨⟨"in/b.d.ts"⟩, [.namespaceItem "app" [zoom, map]]⟩] table layout).get? "out/app/map.dart" =
        (route mapFiles table layout).get? "out/app/map.dart" := by
  intro table layout zoom map
  obtain ⟨hgather, hinsert⟩ := route_records_independent mapFiles table layout "out/app/map.dart"
  have hdeclares : mapFiles[0].Declares ["app"] (.classDecl ⟨"Map", [.method "get" [] none]⟩) :=
    ⟨_, List.mem_cons_self, .inside List.mem_cons_self (.here _)⟩
  have hbinds : mapFiles[0].BindsAt layout "out/app/map.dart" := ⟨_, _, hdeclares, rfl, by decide⟩
  have hzoom : Item.Inserted (.function ⟨"zoom", [], none⟩) ["app"] mapFiles[1].items
    [.namespaceItem "app" [zoom, map]] :=
    .inside [] [] (.here [] [map])
  refine ⟨(hgather _).mpr ⟨⟨_, List.mem_cons_self, by decide, hbinds⟩, rfl⟩, ?_⟩
  exact hinsert [mapFiles[0]] mapFiles[1] [] _ _ _ rfl hzoom (by decide)

end OutputRecords

end InteropBindings
