import InteropBindings.Proofs.Generation
import InteropBindings.Proofs.Output.Materializing
import InteropBindings.Proofs.Output.PlainPaths
import InteropBindings.Proofs.Output.Routing
import InteropBindings.TypeScript

/-!
# Records and their files

Records are told apart by the texts of their paths, files by the components. So two records may have the same file: the
last one is kept, and a run writes fewer files than it has records.

- Keys spell the same path exactly when the same steps lead to them from the output root
  (`OutputLayout.same_pathOf_iff`).
- Plain declarations have one key for each file (`OutputRecords.spelledOnce_route`).
- A run writes as many files as it has records with text exactly when no two of their keys spell the same path
  (`OutputRecords.length_files_eq_iff`).
-/

namespace InteropBindings

open InteropBindings.Path Text

namespace OutputLayout

variable {layout : OutputLayout} {l l' : Located}

/-- A declaration whose name is an identifier and whose ways do not start over. -/
def GoesOn (layout : OutputLayout) (l : Located) : Prop :=
  IsIdentifier l.declaration.name ∧ ∀ w ∈ layout.ways l.around l.file, isAbsolute ⟨w⟩ = false

instance (layout : OutputLayout) : DecidablePred layout.GoesOn := fun l =>
  inferInstanceAs (Decidable (IsIdentifier l.declaration.name ∧
    ∀ w ∈ layout.ways l.around l.file, isAbsolute ⟨w⟩ = false))

/-- The steps that lead from the output root to the binding of a declaration. -/
def stepsTo (layout : OutputLayout) (l : Located) : List Component :=
  (layout.ways l.around l.file).flatMap (fun w : String => stepsOf (slashed ⟨w⟩)) ++
    [.normal (fileName l.declaration.name)]

/-- **When two declarations have the same path**, up to its spelling. -/
theorem same_pathOf_iff (hroot : layout.outputRoot.text ≠ "") (h : layout.GoesOn l) (h' : layout.GoesOn l') :
    same ⟨layout.pathOf l⟩ ⟨layout.pathOf l'⟩ = true ↔ layout.stepsTo l = layout.stepsTo l' := by
  rw [same, beq_iff_eq, pathOf, pathOf, components_outputPath h.1 hroot h.2, components_outputPath h'.1 hroot h'.2,
    List.append_assoc, List.append_assoc, List.append_cancel_left_eq, stepsTo, stepsTo]

/-- Where the binding of a plain declaration is in a tree without links. -/
theorem placeOf_pathOf (d : Disk) (h : layout.IsPlain l) :
    d.placeOf ⟨layout.pathOf l⟩ =
      d.placeOf ⟨layout.outputRoot.slashed⟩ ++
        (layout.folderNames l.around l.file ++ [fileName l.declaration.name]).map RawText.ofString := by
  rw [Disk.placeOf, components_pathOf_of_isPlain h, List.foldl_append, Place.foldl_descend_normal, Disk.placeOf]

/-- Whether the binding of a declaration goes strictly below the output root, written with slashes. -/
def PutsBelow (layout : OutputLayout) (l : Located) : Prop :=
  LiesBelow ⟨layout.outputRoot.slashed⟩ ⟨layout.pathOf l⟩ ∧ same ⟨layout.outputRoot.slashed⟩ ⟨layout.pathOf l⟩ = false

instance (layout : OutputLayout) : DecidablePred layout.PutsBelow := fun l =>
  inferInstanceAs (Decidable (LiesBelow ⟨layout.outputRoot.slashed⟩ ⟨layout.pathOf l⟩ ∧
    same ⟨layout.outputRoot.slashed⟩ ⟨layout.pathOf l⟩ = false))

theorem IsPlain.putsBelow (h : layout.IsPlain l) : layout.PutsBelow l := by
  have hcomponents := components_pathOf_of_isPlain h
  refine ⟨⟨_, hcomponents⟩, ?_⟩
  rw [same, hcomponents]
  simp

/-- A declaration whose name and namespaces are identifiers; outside of namespaces its binding goes below the output
root. -/
def HasSafeNames (layout : OutputLayout) (l : Located) : Prop :=
  IsIdentifier l.declaration.name ∧ (∀ segment ∈ l.around, IsIdentifier segment) ∧ (l.around = [] → layout.PutsBelow l)

instance (layout : OutputLayout) : DecidablePred layout.HasSafeNames := fun l =>
  inferInstanceAs (Decidable (IsIdentifier l.declaration.name ∧ (∀ segment ∈ l.around, IsIdentifier segment) ∧
    (l.around = [] → layout.PutsBelow l)))

theorem HasSafeNames.putsBelow (h : layout.HasSafeNames l) : layout.PutsBelow l := by
  obtain ⟨hname, haround, houtside⟩ := h
  by_cases hnil : l.around = []
  · exact houtside hnil
  · have hplain : layout.HasPlainNames l := ⟨hname, haround, fun he => absurd he hnil⟩
    exact hplain.isPlain.putsBelow

theorem pathOf_eq_of_sameFile {d : Disk} (hlinks : d.LinkFree) (h : layout.IsPlain l) (h' : layout.IsPlain l')
    (hsame : d.SameFile ⟨layout.pathOf l⟩ ⟨layout.pathOf l'⟩) : layout.pathOf l = layout.pathOf l' := by
  have hplace := hlinks.placeOf_eq hsame
  rw [placeOf_pathOf d h, placeOf_pathOf d h', List.append_cancel_left_eq,
    List.map_inj_right fun _ _ => RawText.ofString_inj.mp] at hplace
  rw [pathOf_of_isPlain h, pathOf_of_isPlain h', hplace]

end OutputLayout

namespace OutputRecords

variable {records : OutputRecords} {files : List DeclarationFile} {table : SymbolTable} {layout : OutputLayout}

/-! ## Keys -/

/-- No two keys spell the same path. -/
def SpelledOnce (records : OutputRecords) : Prop :=
  ∀ k ∈ records.keys, ∀ k' ∈ records.keys, same ⟨k⟩ ⟨k'⟩ = true → k = k'

/-- The keys are the paths of the declarations. -/
theorem mem_keys_route {k : String} :
    k ∈ (route files table layout).keys ↔ ∃ l ∈ visited table files, layout.pathOf l = k := by
  constructor
  · intro h
    obtain ⟨⟨path, record⟩, hentry, rfl⟩ := List.mem_map.mp h
    exact exists_visited_of_mem_entries hentry
  · rintro ⟨l, hl, rfl⟩
    have hsent : sentTo table layout files (layout.pathOf l) ≠ [] :=
      List.ne_nil_of_mem (List.mem_filter.mpr ⟨hl, decide_eq_true rfl⟩)
    have hentry := (Ledger.mem_entries_iff (nodup_keys_route table layout files)).mpr
      (get?_route_of_sentTo_ne_nil table layout hsent)
    exact List.mem_map.mpr ⟨_, hentry, rfl⟩

/-- **When no two keys spell the same path**, for ways that do not start over. -/
theorem spelledOnce_route_iff (hroot : layout.outputRoot.text ≠ "")
    (hways : ∀ l ∈ visited table files, layout.GoesOn l) :
    (route files table layout).SpelledOnce ↔ ∀ l ∈ visited table files, ∀ l' ∈ visited table files,
      layout.stepsTo l = layout.stepsTo l' → layout.pathOf l = layout.pathOf l' := by
  constructor
  · intro h l hl l' hl' hsteps
    refine h _ (mem_keys_route.mpr ⟨l, hl, rfl⟩) _ (mem_keys_route.mpr ⟨l', hl', rfl⟩) ?_
    exact (OutputLayout.same_pathOf_iff hroot (hways l hl) (hways l' hl')).mpr hsteps
  · intro h k hk k' hk' hsame
    obtain ⟨l, hl, rfl⟩ := mem_keys_route.mp hk
    obtain ⟨l', hl', rfl⟩ := mem_keys_route.mp hk'
    exact h l hl l' hl' ((OutputLayout.same_pathOf_iff hroot (hways l hl) (hways l' hl')).mp hsame)

/-- **The keys of plain declarations** spell different paths. -/
theorem spelledOnce_route (hplain : ∀ l ∈ visited table files, layout.IsPlain l) :
    (route files table layout).SpelledOnce := by
  intro k hk k' hk' hsame
  obtain ⟨l, hl, rfl⟩ := mem_keys_route.mp hk
  obtain ⟨l', hl', rfl⟩ := mem_keys_route.mp hk'
  exact OutputLayout.pathOf_eq_of_same (hplain l hl) (hplain l' hl') hsame

/-! ## How many files there are -/

theorem length_writtenPaths (records : OutputRecords) : records.writtenPaths.length = records.countWritten := by
  rw [← map_fst_writes, writes, countWritten, Ledger.values, List.length_map, List.length_map,
    List.filter_map, List.length_map]
  rfl

/-- There are no more files than records with text. -/
theorem length_files_le (records : OutputRecords) : records.files.length ≤ records.countWritten := by
  rw [← length_writtenPaths, files, pathSet]
  exact Sorted.length_ofList_le _

/-- **There are as many files as records with text** exactly when no two of their paths are the same. -/
theorem length_files_eq_iff (records : OutputRecords) :
    records.files.length = records.countWritten ↔ records.writtenPaths.Pairwise fun p q => p.same q = false := by
  rw [← length_writtenPaths, files, pathSet, Sorted.length_ofList_eq_iff]
  simp only [ne_eq, order_eq_iff, Bool.not_eq_true]

/-- Where no two keys spell the same path, the paths of the records with text are different ones. -/
theorem SpelledOnce.pairwise (h : records.SpelledOnce) (hkeys : records.keys.Nodup) :
    records.writtenPaths.Pairwise fun p q => p.same q = false := by
  have hentries : records.entries.Pairwise fun e e' => same ⟨e.1⟩ ⟨e'.1⟩ = false := by
    refine (List.pairwise_map.mp hkeys).imp_of_mem fun {e e'} he he' hne => ?_
    rw [Bool.eq_false_iff]
    exact fun hsame => hne (h _ (List.mem_map_of_mem he) _ (List.mem_map_of_mem he') hsame)
  refine List.pairwise_filterMap.mpr (hentries.imp fun {e e'} hsame p hp q hq => ?_)
  cases hempty : e.2.isEmpty <;> cases hempty' : e'.2.isEmpty <;> simp_all

/-! ## Which files records have -/

theorem eq_of_sameFile (hplain : ∀ l ∈ visited table files, layout.IsPlain l) {d : Disk} (hlinks : d.LinkFree)
    {k k' : String} (hk : k ∈ (route files table layout).keys) (hk' : k' ∈ (route files table layout).keys)
    (hsame : d.SameFile ⟨k⟩ ⟨k'⟩) :
    k = k' := by
  obtain ⟨l, hl, rfl⟩ := mem_keys_route.mp hk
  obtain ⟨l', hl', rfl⟩ := mem_keys_route.mp hk'
  exact OutputLayout.pathOf_eq_of_sameFile hlinks (hplain l hl) (hplain l' hl') hsame

theorem ne_of_later (hkeys : records.keys.Nodup) {before after : List (String × OutputRecord)}
    {e : String × OutputRecord} (h : records.entries = before ++ e :: after) : ∀ later ∈ after, later.1 ≠ e.1 := by
  intro later hlater he
  rw [Ledger.keys, h, List.map_append, List.map_cons, List.nodup_append] at hkeys
  exact (List.nodup_cons.mp hkeys.2.1).1 (he ▸ List.mem_map_of_mem hlater)

/-- In a tree without links, the file of no later record is that of a plain one. -/
theorem not_sameFile_of_later (hplain : ∀ l ∈ visited table files, layout.IsPlain l) {d : Disk} (hlinks : d.LinkFree)
    {before after : List (String × OutputRecord)} {e : String × OutputRecord}
    (h : (route files table layout).entries = before ++ e :: after) :
    ∀ later ∈ after, ¬ d.SameFile ⟨later.1⟩ ⟨e.1⟩ := by
  intro later hlater hsame
  have hkey : ∀ e' ∈ e :: after, e'.1 ∈ (route files table layout).keys := by
    intro e' he'
    rw [Ledger.keys, h]
    exact List.mem_map_of_mem (List.mem_append_right _ he')
  exact ne_of_later (nodup_keys_route table layout files) h later hlater
    (eq_of_sameFile hplain hlinks (hkey later (List.mem_cons_of_mem _ hlater)) (hkey e List.mem_cons_self) hsame)

/-- **The file of each record** of plain declarations holds its text, in a tree without links. -/
theorem read_record (hplain : ∀ l ∈ visited table files, layout.IsPlain l) {root : Path} {s s' : LoggedDisk}
    {w : Materialized} (h : ((route files table layout).materialize root false).Ends s w s') (hlinks : s.disk.LinkFree)
    {e : String × OutputRecord} (he : e ∈ (route files table layout).entries) (hempty : e.2.isEmpty = false) :
    s'.disk.read ⟨e.1⟩ = .ok e.2.file := by
  obtain ⟨_, rest, hwrites, hrest⟩ := writesAll_of_materialize h
  have hlinks' : s'.disk.LinkFree := hwrites.grows.linkFree hlinks
  obtain ⟨before, after, hsplit⟩ := List.append_of_mem he
  refine read_of_last_record hwrites hsplit hempty (fun later hlater _ =>
    not_sameFile_of_later hplain hlinks' hsplit later hlater) ?_
  rw [hrest rfl]
  exact fun v hv => absurd hv List.not_mem_nil

/-- **One record, one file.**

- Where ways do not start over, no two keys spell the same path exactly when the same steps never lead to two keys.
- The keys of plain declarations spell different paths, and in a tree without links the file of each record holds its
  text.
- A run that loads the files has at most as many files as records with text, and as many exactly when no two of their
  paths are the same. -/
theorem route_one_file_each (files : List DeclarationFile) (table : SymbolTable) (layout : OutputLayout) :
    (layout.outputRoot.text ≠ "" → (∀ l ∈ visited table files, layout.GoesOn l) →
      ((route files table layout).SpelledOnce ↔ ∀ l ∈ visited table files, ∀ l' ∈ visited table files,
        layout.stepsTo l = layout.stepsTo l' → layout.pathOf l = layout.pathOf l')) ∧
    ((∀ l ∈ visited table files, layout.IsPlain l) →
      (route files table layout).SpelledOnce ∧
      ∀ root s w s', ((route files table layout).materialize root false).Ends s w s' → s.disk.LinkFree →
        ∀ e ∈ (route files table layout).entries, e.2.isEmpty = false → s'.disk.read ⟨e.1⟩ = .ok e.2.file) ∧
    ∀ (parser : Parser) (settings : Settings) (s s' : LoggedDisk) (o : Outcome), (settings.run parser).Ends s o s' →
      settings.dryRun = false →
      settings.directories = .ok (layout.inputRoot, layout.outputRoot) →
        settings.Loads parser layout.inputRoot s files →
        o.recordCount = (settings.recordsOf layout files).countWritten ∧ o.files.length ≤ o.recordCount ∧
        (o.files.length = o.recordCount ↔
          (settings.recordsOf layout files).writtenPaths.Pairwise fun p q => p.same q = false) ∧
        ((settings.recordsOf layout files).SpelledOnce → o.files.length = o.recordCount) := by
  refine ⟨spelledOnce_route_iff, fun hplain => ⟨spelledOnce_route hplain, ?_⟩, ?_⟩
  · intro root s w s' h hlinks e he hempty
    exact read_record hplain h hlinks he hempty
  · intro parser settings s s' o h hdry hdirectories hloads
    obtain ⟨s₁, w, _, hmaterialize, hcount, hfiles, _⟩ := Settings.exists_of_run_of_loads h hdry hdirectories hloads
    have hwritten : o.files = (settings.recordsOf layout files).files :=
      hfiles.trans (writesAll_of_materialize hmaterialize).1
    have hiff := length_files_eq_iff (settings.recordsOf layout files)
    refine ⟨hcount, ?_, ?_, fun honce => ?_⟩
    · rw [hwritten, hcount]
      exact length_files_le _
    · rw [hwritten, hcount]
      exact hiff
    · rw [hwritten, hcount]
      exact hiff.mpr (honce.pairwise (nodup_keys_route _ _ _))

/-- Two modules, one of them with a slash in its name. -/
def layerFiles : List DeclarationFile :=
  [⟨⟨"in/a.d.ts"⟩, [.namespaceItem "ol/Layer" [.declaration (.classDecl ⟨"Foo", []⟩)],
    .namespaceItem "ol" [.declaration (.classDecl ⟨"Foo", []⟩)]]⟩]

/-- The records of both. -/
def layerRecords : OutputRecords := route layerFiles (SymbolTable.build layerFiles {}) ⟨⟨"in"⟩, ⟨"out"⟩⟩

/-- What is written for them. -/
def layerWritten : Materialized where
  files := [⟨"out/ol/foo.dart"⟩, ⟨"out/ol/layer/foo.dart"⟩]
  folders := [⟨"out/ol"⟩, ⟨"out/ol/layer"⟩]
  aggregators := []

/-- The tree that was empty, after that. -/
def layerAfter : LoggedDisk where
  disk.entries.entries := [
    (["out"], .directory),
    (["out", "ol"], .directory),
    (["out", "ol", "layer"], .directory),
    (["out", "ol", "layer", "foo.dart"], .file (.text (classStub ⟨"ol/Layer.Foo"⟩ "Foo"))),
    (["out", "ol", "foo.dart"], .file (.text (classStub ⟨"ol.Foo"⟩ "Foo")))]
  events := [.bindingsWritten 2]

/-- Two modules whose names spell one path. -/
def slashFiles : List DeclarationFile :=
  [⟨⟨"in/a.d.ts"⟩, [.namespaceItem "a//b" [.declaration (.classDecl ⟨"Foo", []⟩)],
    .namespaceItem "a/b" [.declaration (.classDecl ⟨"Foo", [.method "bar" [] (some (.keyword .void))]⟩)]]⟩]

/-- A tree with their source. -/
def slashTree : Disk where
  entries.entries := [
    (["in"], .directory),
    (["in", "a.d.ts"], .file (.text ("export \x7b\x7d;\ndeclare module \"a//b\" \x7b class Foo \x7b\x7d \x7d\n" ++
      "declare module \"a/b\" \x7b class Foo \x7b bar(): void \x7d \x7d\n")))]

/-- Settings for bindings without aggregators. -/
def bareSettings : Settings := { Settings.between ⟨"in"⟩ ⟨"out"⟩ with aggregators := false }

/-- What a run does for them. -/
def slashOutcome : Outcome where
  outputDir := ⟨"out"⟩
  declarationFiles := 1
  symbolCount := 2
  recordCount := 2
  files := [⟨"out/a//b/foo.dart"⟩]

/-- The tree and all that has been told after the run. -/
def slashAfter : LoggedDisk where
  disk := (((slashTree.put ["out"] .directory).put ["out", "a"] .directory).put ["out", "a", "b"] .directory).put
    ["out", "a", "b", "foo.dart"]
    (.file (.text (classStub ⟨"a/b.Foo"⟩ "Foo" ++ extensionBlock "Foo" ["  external void bar();\n"])))
  events := [.filesFound 1 ⟨"in"⟩, .filesParsed 1 1, .tableBuilt 2, .symbolsResolved 2,
    .routed ⟨"a//b.Foo"⟩ "out/a//b/foo.dart", .routed ⟨"a/b.Foo"⟩ "out/a/b/foo.dart", .recordsGenerated 2,
      .bindingsWritten 1]

theorem ends_slashRun : (bareSettings.run typeScript).Ends ⟨slashTree, []⟩ slashOutcome slashAfter := by
  decide +kernel

/-- A slash in the name of a module is no harm, but two spellings of one name are. -/
theorem route_one_file_each_slashes :
    layerRecords.SpelledOnce ∧
      (∀ e ∈ layerRecords.entries, e.2.isEmpty = false → layerAfter.disk.read ⟨e.1⟩ = .ok e.2.file) ∧
      ∃ layout files, bareSettings.Loads typeScript layout.inputRoot ⟨slashTree, []⟩ files ∧
        ¬ (bareSettings.recordsOf layout files).writtenPaths.Pairwise fun p q => p.same q = false := by
  obtain ⟨honce, hplain, _⟩ := route_one_file_each layerFiles (SymbolTable.build layerFiles {}) ⟨⟨"in"⟩, ⟨"out"⟩⟩
  refine ⟨(honce (by decide) (by decide +kernel)).mpr (by decide +kernel), ?_, ?_⟩
  · have hends : (layerRecords.materialize ⟨"out"⟩ false).Ends ⟨{}, []⟩ layerWritten layerAfter := by decide +kernel
    have hlinks : Disk.LinkFree {} := Disk.linkFree_of_entries (by simp [Ledger.empty])
    exact (hplain (by decide +kernel)).2 _ _ _ _ hends hlinks
  · obtain ⟨layout, files, _, _, hdirectories, hloads, _⟩ := Settings.exists_of_run ends_slashRun rfl
    obtain ⟨_, _, hrun⟩ := route_one_file_each files (SymbolTable.build files bareSettings.platform) layout
    obtain ⟨_, _, hiff, _⟩ := hrun typeScript _ _ _ _ ends_slashRun rfl hdirectories hloads
    exact ⟨layout, files, hloads, fun hpairwise => absurd (hiff.mpr hpairwise) (by decide)⟩

/-- **Two records with one file**, of modules whose names spell one path: the run tells of two records and has one file,
and the binding in the first module is lost. -/
theorem not_one_file_each :
    ¬ (route slashFiles (SymbolTable.build slashFiles {}) ⟨⟨"in"⟩, ⟨"out"⟩⟩).SpelledOnce ∧
      (bareSettings.run typeScript).Ends ⟨slashTree, []⟩ slashOutcome slashAfter ∧
      slashOutcome.files.length ≠ slashOutcome.recordCount ∧
      slashAfter.disk.read ⟨"out/a//b/foo.dart"⟩ ≠ .ok (classStub ⟨"a//b.Foo"⟩ "Foo") := by
  refine ⟨fun h => ?_, ends_slashRun, by decide, by decide +kernel⟩
  have hkeys : "out/a//b/foo.dart" = "out/a/b/foo.dart" :=
    h _ (by decide +kernel) _ (by decide +kernel) (by decide +kernel)
  exact absurd hkeys (by decide)

end OutputRecords

end InteropBindings
