import InteropBindings.Proofs.Output.Keys
import InteropBindings.Proofs.Output.Openings
import InteropBindings.Proofs.Path.Cutting
import InteropBindings.TypeScript

/-!
# Bindings and aggregators in one place

Aggregators are written after the binding files, and the one of a folder may have the file name of a binding in it. Then
the binding is gone, and the run tells so.

- Unless a later record has the same file, the file of a record keeps its text exactly when no aggregator has the same
  file (`OutputRecords.Written.keepsBindings`).
- In a tree without links, below the output root, that is when the binding is not named for its folder
  (`OutputRecords.Written.keepsPlainBindings`).
-/

namespace InteropBindings

open InteropBindings.Path Text
open RawText (ofString)
open Disk (Write WritesAll)

namespace OutputRecords

/-- Unless a later record has the same file, the text of a record stays exactly when no aggregator has the same file. -/
def KeepsBindings (records : OutputRecords) (aggregators : List Path) (d : Disk) : Prop :=
  ∀ before e after, records.entries = before ++ e :: after → e.2.isEmpty = false →
    (∀ later ∈ after, later.2.isEmpty = false → ¬ d.SameFile ⟨later.1⟩ ⟨e.1⟩) →
    (d.read ⟨e.1⟩ = .ok e.2.file ↔ ∀ a ∈ aggregators, ¬ d.SameFile a ⟨e.1⟩)

/-- Below the output root, the text of a record stays exactly when it is not named for its folder. Otherwise the
aggregator of the folder takes its place, and that is told. -/
def KeepsPlainBindings (records : OutputRecords) (root : Path) (s' : LoggedDisk) : Prop :=
  ∀ e ∈ records.entries, e.2.isEmpty = false →
    ∃ folder ∈ records.folders, folder.components = (components ⟨e.1⟩).dropLast ∧ (folder.components ≠ root.components →
      (s'.disk.read ⟨e.1⟩ = .ok e.2.file ↔ fileName ⟨e.1⟩ ≠ some (ofString folder.aggregatorFile)) ∧
      (fileName ⟨e.1⟩ = some (ofString folder.aggregatorFile) → .bindingReplaced folder.aggregator ∈ s'.events ∧
        ∃ files, s'.disk.read ⟨e.1⟩ = .ok (folderAggregator folder.shownName files)))

variable {files : List DeclarationFile} {table : SymbolTable} {layout : OutputLayout} {s s' : LoggedDisk}
    {w : Materialized}

theorem mem_writtenPaths {records : OutputRecords} {p : Path} :
    p ∈ records.writtenPaths ↔ ∃ e ∈ records.entries, e.2.isEmpty = false ∧ ⟨e.1⟩ = p := by
  rw [← map_fst_writes, List.mem_map]
  constructor
  · rintro ⟨v, hv, rfl⟩
    obtain ⟨e, he, hempty, rfl⟩ := mem_writes.mp hv
    exact ⟨e, he, hempty, rfl⟩
  · rintro ⟨e, he, hempty, rfl⟩
    exact ⟨_, mem_writes.mpr ⟨e, he, hempty, rfl⟩, rfl⟩

/-- The folder of a binding file is among the folders. -/
theorem exists_folder {records : OutputRecords} {p : Path} (hp : p ∈ records.writtenPaths) {name : RawText}
    (hname : p.fileName = some name) : ∃ folder ∈ records.folders, folder.components = p.components.dropLast := by
  obtain ⟨around, hcomponents⟩ := fileName_eq_some_iff.mp hname
  obtain ⟨q, hq⟩ := exists_parent hcomponents
  have hmem : q ∈ records.writtenPaths.filterMap parent := List.mem_filterMap.mpr ⟨p, hp, hq⟩
  obtain ⟨folder, hfolder, hsame⟩ := exists_mem_pathSet hmem
  exact ⟨folder, hfolder, by rw [← hsame, components_of_parent hq]⟩

namespace Written

/-! ## Aggregators in the place of a file -/

/-- **A file that an aggregator is written to** holds the text of an aggregator with that file. -/
theorem exists_aggregator {records : OutputRecords} {root : Path} (h : records.Written root s w s') {p : Path}
    (hp : ∃ a ∈ w.aggregators, s'.disk.SameFile a p) :
    ∃ folder ∈ records.folders,
      (s'.disk.SameFile folder.aggregator p ∧
        ∃ files, s'.disk.read p = .ok (folderAggregator folder.shownName files)) ∨
      (s'.disk.SameFile (exportFile root folder) p ∧ s'.disk.read p = .ok (rootExport root folder).2) := by
  obtain ⟨inFolders, hin, hwrites⟩ := h.writes
  rw [List.append_assoc] at hwrites
  obtain ⟨d, _, hwrites⟩ := WritesAll.append_iff.mp hwrites
  obtain ⟨a, ha, hsame⟩ := hp
  rw [← h.map_fst hin] at ha
  obtain ⟨v, hv, rfl⟩ := List.mem_map.mp ha
  obtain ⟨before, u, after, hsplit, husame, _, hread⟩ := hwrites.exists_last ⟨v, hv, hsame⟩
  have hu : u ∈ inFolders ++ records.folders.map (rootExport root) := by
    rw [hsplit]
    exact List.mem_append_right _ List.mem_cons_self
  rcases List.mem_append.mp hu with hu | hu
  · obtain ⟨folder, hfolder, haggregator, files, htext⟩ := IsFolderAggregator.exists_of_mem hin hu
    rw [haggregator] at husame
    rw [htext] at hread
    exact ⟨folder, hfolder, .inl ⟨husame, files, hread⟩⟩
  · obtain ⟨folder, hfolder, rfl⟩ := List.mem_map.mp hu
    rw [rootExport_fst] at husame
    exact ⟨folder, hfolder, .inr ⟨husame, hread⟩⟩

/-- The text of an aggregator is not that of a binding file. -/
theorem opening_of_read {records : OutputRecords} {root : Path} (h : records.Written root s w s') {p : Path}
    {text : String} (hp : ∃ a ∈ w.aggregators, s'.disk.SameFile a p) (hread : s'.disk.read p = .ok text) :
    opening text ∉ bindingOpenings := by
  obtain ⟨folder, _, ⟨_, files, hread'⟩ | ⟨_, hread'⟩⟩ := h.exists_aggregator hp
  · obtain rfl := Except.ok.inj (hread.symm.trans hread')
    exact opening_folderAggregator _ _
  · obtain rfl := Except.ok.inj (hread.symm.trans hread')
    exact opening_exportStatement _

/-- **When the bindings stay**, on every tree. -/
theorem keepsBindings {root : Path} (h : (route files table layout).Written root s w s') :
    (route files table layout).KeepsBindings w.aggregators s'.disk := by
  intro before e after hsplit hempty hlater
  have he : e ∈ (route files table layout).entries := by
    rw [hsplit]
    exact List.mem_append_right _ List.mem_cons_self
  constructor
  · intro hread a ha hsame
    exact h.opening_of_read ⟨a, ha, hsame⟩ hread (opening_file he hempty)
  · intro hnone
    obtain ⟨inFolders, hin, hwrites⟩ := h.writes
    rw [List.append_assoc] at hwrites
    refine read_of_last_record hwrites hsplit hempty hlater fun v hv => hnone _ ?_
    rw [← h.map_fst hin]
    exact List.mem_map_of_mem hv

/-! ## Plain declarations in a tree without links -/

variable {l : Located} {folder : Path}

/-- The folders of plain declarations. -/
theorem components_of_mem_folders (hplain : ∀ l ∈ visited table files, layout.IsPlain l)
    (hfolder : folder ∈ (route files table layout).folders) :
    (∃ l ∈ visited table files, folder.components =
      components ⟨layout.outputRoot.slashed⟩ ++ ((layout.folderNames l.around l.file).map ofString).map .normal) ∧
    ∀ n, .normal n ∈ folder.components → backslash ∉ n.toList := by
  obtain ⟨p, hp, hparent⟩ := exists_of_mem_folders hfolder
  obtain ⟨e, he, _, rfl⟩ := mem_writtenPaths.mp hp
  obtain ⟨l, hl, hpath⟩ := exists_visited_of_mem_entries he
  have hcomponents : folder.components = (components ⟨layout.pathOf l⟩).dropLast := by
    rw [hpath]
    exact components_of_parent hparent
  refine ⟨⟨l, hl, ?_⟩, fun n hn hback => ?_⟩
  · rw [hcomponents, OutputLayout.components_pathOf_of_isPlain (hplain l hl), List.map_append, List.map_append,
      ← List.append_assoc, List.map_singleton, List.map_singleton, List.dropLast_concat]
  · rw [hcomponents] at hn
    have hmem := mem_text_of_mem_name ((List.dropLast_sublist _).subset hn) hback
    rw [OutputLayout.pathOf, OutputLayout.outputPath, RawText.backslash_mem_ofString] at hmem
    exact not_mem_slashed _ hmem

/-- An output root with a folder below has no backslashes. -/
theorem slashed_outputRoot (h : (route files table layout).Written layout.outputRoot s w s')
    (hplain : ∀ l ∈ visited table files, layout.IsPlain l) (hfolder : folder ∈ (route files table layout).folders) :
    ofString layout.outputRoot.slashed = layout.outputRoot.text := by
  refine ofString_slashed fun n hn => ?_
  obtain ⟨relative, hrelative⟩ := Option.isSome_iff_exists.mp (h.below folder hfolder)
  have hbelow : Component.normal n ∈ folder.aggregator.components := by
    rw [components_of_relativeTo? hrelative]
    exact List.mem_append_left _ hn
  have hfolders := (components_of_mem_folders hplain hfolder).2
  rw [h.components_aggregator hfolder, List.mem_append, List.mem_singleton] at hbelow
  rcases hbelow with hbelow | hbelow
  · exact ⟨isSome_string?_of_mem_folders hfolder hbelow, hfolders n hbelow⟩
  · -- The aggregator is named for the last name of the folder.
    obtain ⟨name, hname⟩ := Option.isSome_iff_exists.mp (h.named folder hfolder)
    obtain ⟨around, haround⟩ := fileName_eq_some_iff.mp hname
    obtain rfl := Component.normal.inj hbelow
    rw [RawText.string?_ofString, RawText.backslash_mem_ofString]
    exact ⟨rfl, fun hback => hfolders name (by rw [haround]; simp) (back_of_aggregatorFile hname hback)⟩

/-- **The aggregator in the place of a binding** is that of the folder of the binding. -/
theorem of_sameFile_aggregator (h : (route files table layout).Written layout.outputRoot s w s')
    (hlinks : s'.disk.LinkFree) (hplain : ∀ l ∈ visited table files, layout.IsPlain l) (hl : l ∈ visited table files)
    (hfolder : folder.components = (components ⟨layout.pathOf l⟩).dropLast) {g : Path}
    (hg : g ∈ (route files table layout).folders) (hsame : s'.disk.SameFile g.aggregator ⟨layout.pathOf l⟩) :
    g.fileName = folder.fileName ∧ fileName ⟨layout.pathOf l⟩ = some (ofString folder.aggregatorFile) := by
  have hplace := hlinks.placeOf_eq hsame
  obtain ⟨⟨l', hl', hcomponents⟩, _⟩ := components_of_mem_folders hplain hg
  -- Below the same place, the names of the folder and of the file are the same.
  rw [OutputLayout.placeOf_pathOf _ (hplain l hl), Disk.placeOf, h.components_aggregator hg, hcomponents,
    List.append_assoc, ← List.map_singleton, ← List.map_append, List.foldl_append, Place.foldl_descend_normal,
    ← Disk.placeOf, List.append_cancel_left_eq] at hplace
  have hpath : components ⟨layout.pathOf l⟩ = g.components ++ [.normal g.aggregatorFile] := by
    rw [OutputLayout.components_pathOf_of_isPlain (hplain l hl), ← hplace, hcomponents, List.map_append,
      List.append_assoc, List.map_singleton]
  have hname : g.fileName = folder.fileName := fileName_congr (by rw [hfolder, hpath, List.dropLast_concat])
  refine ⟨hname, ?_⟩
  rw [aggregatorFile, shownName, ← hname, ← shownName, ← aggregatorFile]
  exact fileName_eq_some_iff.mpr ⟨_, hpath⟩

/-- A binding in the place of an export at the output root lies directly in it. -/
theorem of_sameFile_exportFile (h : (route files table layout).Written layout.outputRoot s w s')
    (hlinks : s'.disk.LinkFree) (hplain : ∀ l ∈ visited table files, layout.IsPlain l) (hl : l ∈ visited table files)
    (hfolder : folder ∈ (route files table layout).folders)
    (hsame : s'.disk.SameFile (exportFile layout.outputRoot folder) ⟨layout.pathOf l⟩) :
    (components ⟨layout.pathOf l⟩).dropLast = layout.outputRoot.components := by
  have hplace := hlinks.placeOf_eq hsame
  have hroot : (⟨layout.outputRoot.slashed⟩ : Path) = layout.outputRoot :=
    congrArg Path.mk (h.slashed_outputRoot hplain hfolder)
  rw [OutputLayout.placeOf_pathOf _ (hplain l hl), Disk.placeOf, h.components_exportFile hfolder, List.foldl_append,
    ← Disk.placeOf, hroot] at hplace
  have hnil : layout.folderNames l.around l.file = [] := by
    have hlength := congrArg List.length hplace
    simp only [List.foldl_cons, List.foldl_nil, Place.descend, List.length_append, List.length_map,
      List.length_singleton] at hlength
    exact List.length_eq_zero_iff.mp (by omega)
  rw [OutputLayout.components_pathOf_of_isPlain (hplain l hl), hnil, hroot, List.nil_append, List.map_singleton,
    List.map_singleton, List.dropLast_concat]

/-- A binding that is named for its folder has the path of the aggregator. -/
theorem components_of_fileName {records : OutputRecords} {root : Path} (h : records.Written root s w s')
    (hfolder : folder ∈ records.folders) {p : Path} (hin : folder.components = p.components.dropLast)
    (hname : p.fileName = some (ofString folder.aggregatorFile)) : folder.aggregator.components = p.components := by
  obtain ⟨around, hcomponents⟩ := fileName_eq_some_iff.mp hname
  rw [h.components_aggregator hfolder, hin, hcomponents, List.dropLast_concat]

/-- An aggregator in the place of a binding file is told of. -/
theorem mem_events {records : OutputRecords} {root : Path} (h : records.Written root s w s')
    (hfolder : folder ∈ records.folders)
    {p : Path} (hp : p ∈ records.writtenPaths) (hsame : folder.aggregator.components = p.components) :
    .bindingReplaced folder.aggregator ∈ s'.events := by
  obtain ⟨q, hq, hpq⟩ := exists_mem_pathSet hp
  have hreplaced : records.files.any folder.aggregator.same = true := by
    refine List.any_eq_true.mpr ⟨q, hq, ?_⟩
    rw [same, hsame, hpq, beq_self_eq_true]
  have hmem : Event.bindingReplaced folder.aggregator ∈ records.folders.flatMap (replacedEvents records.files) := by
    refine List.mem_flatMap.mpr ⟨folder, hfolder, ?_⟩
    rw [replacedEvents, if_pos hreplaced]
    exact List.mem_singleton_self _
  rw [h.events]
  exact List.mem_append_left _ (List.mem_append_right _ hmem)

/-- **When the bindings of plain declarations stay**, in a tree without links. -/
theorem keepsPlainBindings (h : (route files table layout).Written layout.outputRoot s w s') (hlinks : s.disk.LinkFree)
    (hplain : ∀ l ∈ visited table files, layout.IsPlain l) :
    (route files table layout).KeepsPlainBindings layout.outputRoot s' := by
  rintro ⟨path, record⟩ he hempty
  obtain ⟨l, hl, rfl⟩ := exists_visited_of_mem_entries he
  have hlinks' : s'.disk.LinkFree := h.linkFree hlinks
  have hwritten : (⟨layout.pathOf l⟩ : Path) ∈ (route files table layout).writtenPaths :=
    mem_writtenPaths.mpr ⟨_, he, hempty, rfl⟩
  obtain ⟨folder, hfolder, hin⟩ := exists_folder hwritten (OutputLayout.fileName_pathOf_of_isPlain (hplain l hl))
  have haggregator : folder.aggregator ∈ w.aggregators := by
    rw [h.aggregators]
    exact List.mem_append_left _ (List.mem_map_of_mem hfolder)
  refine ⟨folder, hfolder, hin, fun hne => ?_⟩
  have hexport : ∀ g ∈ (route files table layout).folders,
      ¬ s'.disk.SameFile (exportFile layout.outputRoot g) ⟨layout.pathOf l⟩ := fun g hg hsame =>
    hne (hin.trans (h.of_sameFile_exportFile hlinks' hplain hl hg hsame))
  have hreplaced : fileName ⟨layout.pathOf l⟩ = some (ofString folder.aggregatorFile) →
      s'.disk.SameFile folder.aggregator ⟨layout.pathOf l⟩ := fun hname =>
    hlinks'.sameFile_of_components (h.isSome_fileAt? (.inr haggregator)) (h.isSome_fileAt? (.inl hwritten))
      (h.components_of_fileName hfolder hin hname)
  refine ⟨⟨fun hread hname => ?_, fun hother => ?_⟩, fun hname => ⟨?_, ?_⟩⟩
  · exact h.opening_of_read ⟨_, haggregator, hreplaced hname⟩ hread (opening_file he hempty)
  · obtain ⟨before, after, hsplit⟩ := List.append_of_mem he
    refine (h.keepsBindings before _ after hsplit hempty fun later hlater _ =>
      not_sameFile_of_later hplain hlinks' hsplit later hlater).mpr fun a ha hsame => ?_
    rw [h.aggregators, List.mem_append] at ha
    rcases ha with ha | ha
    · obtain ⟨g, hg, rfl⟩ := List.mem_map.mp ha
      exact hother (h.of_sameFile_aggregator hlinks' hplain hl hin hg hsame).2
    · obtain ⟨g, hg, rfl⟩ := List.mem_map.mp ha
      exact hexport g hg hsame
  · exact h.mem_events hfolder hwritten (h.components_of_fileName hfolder hin hname)
  · obtain ⟨g, hg, ⟨hsame, files', hread⟩ | ⟨hsame, _⟩⟩ := h.exists_aggregator ⟨_, haggregator, hreplaced hname⟩
    · rw [shownName, (h.of_sameFile_aggregator hlinks' hplain hl hin hg hsame).1, ← shownName] at hread
      exact ⟨files', hread⟩
    · exact absurd hsame (hexport g hg)

end Written

/-- **What becomes of bindings** when aggregators are written after them.

- On every tree, the file of a record keeps its text exactly when no aggregator has the same file, unless a later record
  has it.
- In a tree without links, plain declarations below the output root lose their binding exactly when it is named for its
  folder. Then the aggregator of the folder is there, and that is told. -/
theorem route_keeps_bindings (files : List DeclarationFile) (table : SymbolTable) (layout : OutputLayout) :
    (∀ s s' w, ((route files table layout).materialize layout.outputRoot true).Ends s w s' →
      (route files table layout).KeepsBindings w.aggregators s'.disk ∧
      (s.disk.LinkFree → (∀ l ∈ visited table files, layout.IsPlain l) →
        (route files table layout).KeepsPlainBindings layout.outputRoot s')) ∧
    ∀ (parser : Parser) (settings : Settings) (s s' : LoggedDisk) (o : Outcome), (settings.run parser).Ends s o s' →
      settings.dryRun = false → settings.aggregators = true →
      settings.directories = .ok (layout.inputRoot, layout.outputRoot) →
        settings.Loads parser layout.inputRoot s files →
        (settings.recordsOf layout files).KeepsBindings o.aggregators s'.disk ∧
        (s.disk.LinkFree → (∀ l ∈ visited (SymbolTable.build files settings.platform) files, layout.IsPlain l) →
          (settings.recordsOf layout files).KeepsPlainBindings layout.outputRoot s') := by
  constructor
  · intro s s' w h
    have hw := written_of_materialize h
    exact ⟨hw.keepsBindings, hw.keepsPlainBindings⟩
  · intro parser settings s s' o h hdry haggregators hdirectories hloads
    obtain ⟨s₁, w, hdisk, hmaterialize, _, _, hwritten⟩ := Settings.exists_of_run_of_loads h hdry hdirectories hloads
    rw [haggregators] at hmaterialize
    have hw := written_of_materialize hmaterialize
    rw [hwritten]
    exact ⟨hw.keepsBindings, fun hlinks => hw.keepsPlainBindings (hdisk ▸ hlinks)⟩

/-- A source file that declares a class of its own name, and another one. -/
def controlFiles : List DeclarationFile :=
  [⟨⟨"in/ol/control.d.ts"⟩, [.declaration (.classDecl ⟨"Control", []⟩), .declaration (.classDecl ⟨"Foo", []⟩)]⟩]

/-- The records of both. -/
def controlRecords : OutputRecords := route controlFiles (SymbolTable.build controlFiles {}) ⟨⟨"in"⟩, ⟨"out"⟩⟩

theorem entries_controlRecords : controlRecords.entries =
    [("out/ol/control/control.dart",
      { chunks := [⟨classStub ⟨"Control"⟩ "Control", []⟩], signatures := ⟨[(⟨"Control"⟩, [])]⟩ }),
     ("out/ol/control/foo.dart",
      { chunks := [⟨classStub ⟨"Foo"⟩ "Foo", []⟩], signatures := ⟨[(⟨"Foo"⟩, [])]⟩ })] := by
  rfl

/-- A tree with that source file. -/
def controlTree : Disk where
  entries.entries := [
    (["in"], .directory),
    (["in", "ol"], .directory),
    (["in", "ol", "control.d.ts"], .file (.text "export class Control \x7b\x7d\nexport class Foo \x7b\x7d\n"))]

/-- What is told before the records are written. -/
def controlEvents : List Event :=
  [.filesFound 1 ⟨"in"⟩, .filesParsed 1 1, .tableBuilt 2, .symbolsResolved 2,
   .routed ⟨"Control"⟩ "out/ol/control/control.dart", .routed ⟨"Foo"⟩ "out/ol/control/foo.dart", .recordsGenerated 2]

/-- The tree and all that has been told after a run. -/
def controlAfter : LoggedDisk where
  disk.entries.entries := [
    (["in"], .directory),
    (["in", "ol"], .directory),
    (["in", "ol", "control.d.ts"], .file (.text "export class Control \x7b\x7d\nexport class Foo \x7b\x7d\n")),
    (["out"], .directory),
    (["out", "ol"], .directory),
    (["out", "ol", "control"], .directory),
    (["out", "ol", "control", "control.dart"], .file (.text "// Library file for control\nexport './foo.dart';\n")),
    (["out", "ol", "control", "foo.dart"], .file (.text (classStub ⟨"Foo"⟩ "Foo"))),
    (["out", "control.dart"], .file (.text "export './ol/control/control.dart';\n"))]
  events := controlEvents ++
    [.bindingsWritten 2, .bindingReplaced ⟨"out/ol/control/control.dart"⟩, .aggregatorsWritten 2]

/-- What is written for the records. -/
def controlWritten : Materialized where
  files := [⟨"out/ol/control/control.dart"⟩, ⟨"out/ol/control/foo.dart"⟩]
  folders := [⟨"out/ol/control"⟩]
  aggregators := [⟨"out/ol/control/control.dart"⟩, ⟨"out/control.dart"⟩]

/-- What the run does. -/
def controlOutcome : Outcome where
  outputDir := ⟨"out"⟩
  declarationFiles := 1
  symbolCount := 2
  recordCount := 2
  files := controlWritten.files
  aggregators := controlWritten.aggregators

theorem ends_controlRecords :
    (controlRecords.materialize ⟨"out"⟩ true).Ends ⟨controlTree, controlEvents⟩ controlWritten controlAfter := by
  decide +kernel

theorem ends_controlRun :
    ((Settings.between ⟨"in"⟩ ⟨"out"⟩).run typeScript).Ends ⟨controlTree, []⟩ controlOutcome controlAfter := by
  decide +kernel

/-- The second class keeps its binding, the first one does not, and that is told. -/
theorem route_keeps_bindings_control :
    controlAfter.disk.read ⟨"out/ol/control/foo.dart"⟩ = .ok (classStub ⟨"Foo"⟩ "Foo") ∧
      .bindingReplaced ⟨"out/ol/control/control.dart"⟩ ∈ controlAfter.events ∧
      ∃ layout files, (Settings.between ⟨"in"⟩ ⟨"out"⟩).Loads typeScript layout.inputRoot ⟨controlTree, []⟩ files ∧
        (Settings.recordsOf (.between ⟨"in"⟩ ⟨"out"⟩) layout files).KeepsBindings controlOutcome.aggregators
          controlAfter.disk := by
  have hlinks : controlTree.LinkFree := Disk.linkFree_of_entries (by decide +kernel)
  have hnames : ∀ l ∈ visited (SymbolTable.build controlFiles {}) controlFiles,
      OutputLayout.HasPlainNames ⟨⟨"in"⟩, ⟨"out"⟩⟩ l := by decide +kernel
  have hkeeps : controlRecords.KeepsPlainBindings ⟨"out"⟩ controlAfter :=
    ((route_keeps_bindings controlFiles (SymbolTable.build controlFiles {}) ⟨⟨"in"⟩, ⟨"out"⟩⟩).1 _ _ _
      ends_controlRecords).2 hlinks fun l hl => (hnames l hl).isPlain
  have hfolders : controlRecords.folders = [⟨"out/ol/control"⟩] :=
    (written_of_materialize ends_controlRecords).folders.symm
  rw [KeepsPlainBindings, entries_controlRecords, hfolders, List.forall_mem_cons, List.forall_mem_singleton] at hkeeps
  obtain ⟨hcontrol, hfoo⟩ := hkeeps
  have hfile : aggregatorFile ⟨"out/ol/control"⟩ = "control.dart" ∧
      aggregator ⟨"out/ol/control"⟩ = ⟨"out/ol/control/control.dart"⟩ := by decide +kernel
  have hroot : components ⟨"out/ol/control"⟩ ≠ components ⟨"out"⟩ := by decide +kernel
  refine ⟨?_, ?_, ?_⟩
  · obtain ⟨folder, hfolder, _, hbelow⟩ := hfoo (by decide)
    obtain rfl := List.mem_singleton.mp hfolder
    exact (hbelow hroot).1.mpr (by rw [hfile.1]; decide +kernel)
  · obtain ⟨folder, hfolder, _, hbelow⟩ := hcontrol (by decide)
    obtain rfl := List.mem_singleton.mp hfolder
    have htold := ((hbelow hroot).2 (by rw [hfile.1]; decide +kernel)).1
    rwa [hfile.2] at htold
  · obtain ⟨layout, files, _, _, hdirectories, hloads, _⟩ := Settings.exists_of_run ends_controlRun rfl
    obtain ⟨_, hrun⟩ := route_keeps_bindings files (SymbolTable.build files {}) layout
    exact ⟨layout, files, hloads, (hrun typeScript _ _ _ _ ends_controlRun rfl rfl hdirectories hloads).1⟩

/-- **A binding that is lost**: that of a class with the name of its source file. -/
theorem not_all_bindings_kept :
    ((Settings.between ⟨"in"⟩ ⟨"out"⟩).run typeScript).Ends ⟨controlTree, []⟩ controlOutcome controlAfter ∧
      ¬ ∀ e ∈ controlRecords.entries, e.2.isEmpty = false → controlAfter.disk.read ⟨e.1⟩ = .ok e.2.file := by
  refine ⟨ends_controlRun, ?_⟩
  rw [entries_controlRecords, List.forall_mem_cons]
  intro h
  exact absurd (h.1 (by decide)) (by decide +kernel)

end OutputRecords

end InteropBindings
