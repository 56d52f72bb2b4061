import InteropBindings.Proofs.Output.Imports
import InteropBindings.Proofs.Output.Materializing
import InteropBindings.Proofs.Path.Cutting

/-!
# Which folders the output root exports

Each folder has one export at the output root, in a file that is named for the last name of the folder alone. Folders
that have the same last name share the file, and the last one of them has its export there in the end
(`OutputRecords.rootExport_read_iff`).
-/

namespace InteropBindings

open InteropBindings.Path
open RawText (ofString)

variable {s s' : LoggedDisk} {records : OutputRecords} {root : Path} {w : Materialized}

/-- A path that goes on from another one through names without backslashes, at least one. -/
def Path.PlainBelow (root p : Path) : Prop :=
  ∃ names last, p.components = root.components ++ (names ++ [last]).map .normal ∧
    ∀ n ∈ names ++ [last], backslash ∉ n.toList

/-- Some file directly in a directory exports the aggregator of a folder below. -/
def Disk.ExportsAt (d : Disk) (root folder : Path) : Prop :=
  ∃ relative name text, Path.relativeTo? root folder.aggregator = some relative ∧ IsName name ∧
    name.endsWith ".dart" = true ∧ d.read (root.join name) = .ok text ∧
    Text.Holds text (exportStatement relative.slashed)

namespace OutputRecords

/-! ## Folders -/

theorem exists_names_of_mem_folders (hplain : ∀ p ∈ records.writtenPaths, PlainBelow root p) {folder : Path}
    (h : folder ∈ records.folders) :
    ∃ names : List RawText, folder.components = root.components ++ names.map .normal ∧
      ∀ n ∈ names, backslash ∉ n.toList := by
  obtain ⟨p, hp, hparent⟩ := exists_of_mem_folders h
  obtain ⟨names, last, hcomponents, hback⟩ := hplain p hp
  refine ⟨names, ?_, fun n hn => hback n (List.mem_append_left _ hn)⟩
  rw [components_of_parent hparent, hcomponents, List.map_append, ← List.append_assoc, List.map_singleton,
    List.dropLast_concat]

/-- Folders come in their order. -/
theorem order_of_folders {before after : List Path} {folder : Path} (h : records.folders = before ++ folder :: after) :
    ∀ later ∈ after, folder.order later = .lt := by
  have hsorted : Sorted.IsSorted Path.order records.folders := Sorted.isSorted_ofList _
  rw [h] at hsorted
  exact (List.pairwise_cons.mp (List.pairwise_append.mp hsorted).2.1).1

/-! ## Exports -/

theorem exportStatement_inj {file file' : String} (h : exportStatement file = exportStatement file') :
    file = file' := by
  rw [exportStatement, exportStatement, String.append_left_inj, String.append_right_inj] at h
  exact h

/-- A folder is exported where its export is read. -/
theorem exportsAt_of_read {d : Disk} {folder relative : Path} (hname : folder.fileName.isSome)
    (hrelative : Path.relativeTo? root folder.aggregator = some relative)
    (h : d.read (exportFile root folder) = .ok (exportStatement relative.slashed ++ "\n")) :
    d.ExportsAt root folder := by
  have hending : (ofString folder.aggregatorFile).endsWith ".dart" = true := by
    rw [RawText.endsWith_ofString]
    exact Text.endsWith_append _ _
  exact ⟨relative, _, _, hrelative, isName_aggregatorFile hname, hending, h, (Text.Holds.refl _).append_right _⟩

/-- What the export of a folder names has no backslashes, unless the folder is the output root. -/
theorem exists_relative (hplain : ∀ p ∈ records.writtenPaths, PlainBelow root p) (hw : records.Written root s w s')
    {folder : Path} (hfolder : folder ∈ records.folders) (hne : folder.components ≠ root.components) :
    ∃ relative, Path.relativeTo? root folder.aggregator = some relative ∧
      root.components ++ relative.components = folder.components ++ [.normal folder.aggregatorFile] ∧
      ofString relative.slashed = relative.text := by
  obtain ⟨relative, hrelative⟩ := Option.isSome_iff_exists.mp (hw.below folder hfolder)
  have haggregator := hw.components_aggregator hfolder
  obtain ⟨names, hnames, hback⟩ := exists_names_of_mem_folders hplain hfolder
  have hrest : relative.components = (names ++ [ofString folder.aggregatorFile]).map .normal := by
    have hboth := components_of_relativeTo? hrelative
    rw [haggregator, hnames, List.append_assoc, List.append_cancel_left_eq] at hboth
    rw [← hboth, List.map_append, List.map_singleton]
  have hmem_iff : ∀ n, Component.normal n ∈ relative.components ↔ n ∈ names ∨ n = ofString folder.aggregatorFile := by
    intro n
    rw [hrest, List.mem_map_of_injective (fun _ _ => Component.normal.inj), List.mem_append, List.mem_singleton]
  refine ⟨relative, hrelative, by rw [← components_of_relativeTo? hrelative, haggregator],
    ofString_slashed fun n hn => ?_⟩
  rcases (hmem_iff n).mp hn with hn | rfl
  · refine ⟨isSome_string?_of_mem_folders hfolder ?_, hback n hn⟩
    rw [hnames]
    exact List.mem_append_right _ (List.mem_map_of_mem hn)
  · rw [RawText.string?_ofString]
    refine ⟨rfl, fun hmem => ?_⟩
    -- The file is named for the last name, which is one of those below the root.
    have hlast : ∃ before name, names = before ++ [name] := by
      rcases List.eq_nil_or_concat names with rfl | ⟨before, name, rfl⟩
      · exact absurd (by rw [hnames]; simp) hne
      · exact ⟨before, name, by simp⟩
    obtain ⟨before, name, rfl⟩ := hlast
    have hfileName : folder.fileName = some name :=
      fileName_eq_some_iff.mpr ⟨root.components ++ before.map .normal, by rw [hnames]; simp⟩
    exact hback name (by simp) (back_of_aggregatorFile hfileName ((RawText.backslash_mem_ofString _).mp hmem))

/-- Different folders with plain paths are exported by different statements. -/
theorem components_eq_of_rootExport (hplain : ∀ p ∈ records.writtenPaths, PlainBelow root p)
    (hw : records.Written root s w s') {folder folder' : Path} (hfolder : folder ∈ records.folders)
    (hfolder' : folder' ∈ records.folders) (hne : folder.components ≠ root.components)
    (hne' : folder'.components ≠ root.components) (h : (rootExport root folder).2 = (rootExport root folder').2) :
    folder.components = folder'.components := by
  obtain ⟨relative, hrelative, hcomponents, hslashed⟩ := exists_relative hplain hw hfolder hne
  obtain ⟨relative', hrelative', hcomponents', hslashed'⟩ := exists_relative hplain hw hfolder' hne'
  rw [rootExport, rootExport, hrelative, hrelative', String.append_left_inj] at h
  have hsame := exportStatement_inj h
  rw [Option.getD_some, Option.getD_some, ← RawText.ofString_inj, hslashed, hslashed'] at hsame
  rw [show relative' = relative from congrArg Path.mk hsame.symm, hcomponents] at hcomponents'
  have hlast := congrArg List.dropLast hcomponents'
  rwa [List.dropLast_concat, List.dropLast_concat] at hlast

namespace Written

variable {before after : List Path} {folder : Path}

/-- The export of a folder stays when no later folder has the same file. -/
theorem read_of_last (h : records.Written root s w s') (hfolders : records.folders = before ++ folder :: after)
    (hlast : ∀ later ∈ after, ¬ s'.disk.SameFile (exportFile root later) (exportFile root folder)) :
    s'.disk.read (exportFile root folder) = .ok (rootExport root folder).2 := by
  obtain ⟨inFolders, _, hwrites⟩ := h.writes
  obtain ⟨d, _, hroot⟩ := Disk.WritesAll.append_iff.mp hwrites
  rw [hfolders, List.map_append, List.map_cons] at hroot
  rw [← rootExport_fst]
  refine hroot.read_of_last fun v hv => ?_
  obtain ⟨later, hlater, rfl⟩ := List.mem_map.mp hv
  rw [rootExport_fst, rootExport_fst]
  exact hlast later hlater

theorem isSome_fileAt?_exportFile (h : records.Written root s w s') (hfolder : folder ∈ records.folders) :
    (s'.disk.fileAt? (exportFile root folder)).isSome := by
  refine h.isSome_fileAt? (.inr ?_)
  rw [h.aggregators]
  exact List.mem_append_right _ (List.mem_map_of_mem hfolder)

/-- The file of a folder holds the export of the last folder that has the same file. -/
theorem exists_last_export (h : records.Written root s w s') (hfolders : records.folders = before ++ folder :: after) :
    ∃ front last back, folder :: after = front ++ last :: back ∧
      s'.disk.SameFile (exportFile root last) (exportFile root folder) ∧
      (∀ later ∈ back, ¬ s'.disk.SameFile (exportFile root later) (exportFile root folder)) ∧
      s'.disk.read (exportFile root folder) = .ok (rootExport root last).2 := by
  have hfolder : folder ∈ records.folders := by rw [hfolders]; simp
  have hself : s'.disk.SameFile (exportFile root folder) (exportFile root folder) :=
    ⟨h.isSome_fileAt?_exportFile hfolder, rfl⟩
  obtain ⟨front, last, back, hsplit, hsame, hlast⟩ := Disk.exists_last_split
    (p := fun g => s'.disk.SameFile (exportFile root g) (exportFile root folder)) ⟨folder, List.mem_cons_self, hself⟩
  refine ⟨front, last, back, hsplit, hsame, hlast, ?_⟩
  rw [hsplit, ← List.append_assoc] at hfolders
  rw [← hsame.read_eq]
  exact h.read_of_last hfolders fun later hlater hsame' => hlast later hlater (hsame'.trans hsame)

/-- In a tree without links, two folders have the same file at the output root when they have the same last name. -/
theorem sameFile_exportFile_iff (h : records.Written root s w s') (hlinks : s.disk.LinkFree) {folder' : Path}
    (hfolder : folder ∈ records.folders) (hfolder' : folder' ∈ records.folders) :
    s'.disk.SameFile (exportFile root folder') (exportFile root folder) ↔ folder'.fileName = folder.fileName := by
  rw [← shownName_eq_iff hfolder hfolder' (h.named folder hfolder) (h.named folder' hfolder'),
    (h.linkFree hlinks).sameFile_iff (h.isSome_fileAt?_exportFile hfolder') (h.isSome_fileAt?_exportFile hfolder),
    Disk.placeOf, Disk.placeOf, h.components_exportFile hfolder, h.components_exportFile hfolder', List.foldl_append,
    List.foldl_append, aggregatorFile, aggregatorFile]
  simp [Place.descend, aggregatorName_inj]

end Written

/-- Folders that come after one below the output root lie below it, too. -/
theorem components_ne_of_later (hplain : ∀ p ∈ records.writtenPaths, PlainBelow root p) {before after : List Path}
    {folder : Path} (h : records.folders = before ++ folder :: after) (hne : folder.components ≠ root.components) :
    ∀ later ∈ after, later.components ≠ root.components := by
  intro later hlater he
  have hfolder : folder ∈ records.folders := by rw [h]; simp
  obtain ⟨names, hnames, _⟩ := exists_names_of_mem_folders hplain hfolder
  have hlt : folder.order later = .lt := order_of_folders h later hlater
  cases names with
  | nil => exact hne (by rw [hnames]; simp)
  | cons n names =>
    have hgt : later.order folder = .lt := order_of_append (by rw [hnames, he]; rfl)
    rw [Std.OrientedCmp.gt_of_lt hgt] at hlt
    cases hlt

/-- **Which folders the output root exports.** Materializing writes an export of each folder below the output root to
the file at the root that is named for the folder's last name.

- The export of a folder is there in the end exactly when the file of no later folder is the same one; otherwise another
  folder's export is there.
- In a tree without links, the files are the same when the last names are. -/
theorem rootExport_read_iff (records : OutputRecords) (root : Path) (s s' : LoggedDisk) (w : Materialized)
    (h : (records.materialize root true).Ends s w s') (hplain : ∀ p ∈ records.writtenPaths, PlainBelow root p)
    (before after : List Path) (folder : Path) (hfolders : w.folders = before ++ folder :: after)
    (hne : folder.components ≠ root.components) :
    ∃ relative, Path.relativeTo? root folder.aggregator = some relative ∧
      (s'.disk.read (exportFile root folder) = .ok (exportStatement relative.slashed ++ "\n") ↔
        ∀ later ∈ after, ¬ s'.disk.SameFile (exportFile root later) (exportFile root folder)) ∧
      (s'.disk.read (exportFile root folder) = .ok (exportStatement relative.slashed ++ "\n") →
        s'.disk.ExportsAt root folder) ∧
      (s.disk.LinkFree →
        ((∀ later ∈ after, ¬ s'.disk.SameFile (exportFile root later) (exportFile root folder)) ↔
          ∀ later ∈ after, later.fileName ≠ folder.fileName)) ∧
      ∃ last ∈ folder :: after, s'.disk.SameFile (exportFile root last) (exportFile root folder) ∧
        s'.disk.read (exportFile root folder) = .ok (rootExport root last).2 := by
  have hw := written_of_materialize h
  rw [hw.folders] at hfolders
  have hfolder : folder ∈ records.folders := by rw [hfolders]; simp
  have hlater : ∀ later ∈ after, later ∈ records.folders := by
    intro later hmem
    rw [hfolders]
    exact List.mem_append_right _ (List.mem_cons_of_mem _ hmem)
  obtain ⟨relative, hrelative, _, _⟩ := exists_relative hplain hw hfolder hne
  have hown : (rootExport root folder).2 = exportStatement relative.slashed ++ "\n" := by
    rw [rootExport, hrelative, Option.getD_some]
  refine ⟨relative, hrelative, ⟨fun hread => ?_, fun hlast => ?_⟩, fun hread => ?_, fun hlinks => ?_, ?_⟩
  · -- The export that is read belongs to the last folder with this file, so that is the folder itself.
    obtain ⟨front, last, back, hsplit, hsame, hlast, hread'⟩ := hw.exists_last_export hfolders
    cases front with
    | nil =>
      obtain ⟨rfl, rfl⟩ := List.cons.inj hsplit
      exact hlast
    | cons first front =>
      obtain ⟨rfl, rfl⟩ := List.cons.inj hsplit
      have hmem : last ∈ front ++ last :: back := by simp
      have htext : (rootExport root folder).2 = (rootExport root last).2 := by
        have hboth := hread.symm.trans hread'
        rw [hown]
        exact Except.ok.inj hboth
      have hcomponents := components_eq_of_rootExport hplain hw hfolder (hlater last hmem) hne
        (components_ne_of_later hplain hfolders hne last hmem) htext
      have heq : folder.order last = .eq := order_eq_iff.mpr (by rw [same, hcomponents, beq_self_eq_true])
      rw [order_of_folders hfolders last hmem] at heq
      cases heq
  · rw [← hown]
    exact hw.read_of_last hfolders hlast
  · exact exportsAt_of_read (hw.named folder hfolder) hrelative hread
  · refine forall_congr' fun later => forall_congr' fun hmem => not_congr ?_
    exact hw.sameFile_exportFile_iff hlinks hfolder (hlater later hmem)
  · obtain ⟨front, last, back, hsplit, hsame, _, hread⟩ := hw.exists_last_export hfolders
    exact ⟨last, by rw [hsplit]; simp, hsame, hread⟩

/-- Two source files with the same name in different folders. -/
def utilFiles : List DeclarationFile :=
  [⟨⟨"in/a/util.d.ts"⟩, [.declaration (.classDecl ⟨"Foo", []⟩)]⟩,
   ⟨⟨"in/b/util.d.ts"⟩, [.declaration (.classDecl ⟨"Bar", []⟩)]⟩]

/-- The records of both. -/
def utilRecords : OutputRecords := route utilFiles (SymbolTable.build utilFiles {}) ⟨⟨"in"⟩, ⟨"out"⟩⟩

/-- What is written for them. -/
def utilWritten : Materialized where
  files := [⟨"out/a/util/foo.dart"⟩, ⟨"out/b/util/bar.dart"⟩]
  folders := [⟨"out/a/util"⟩, ⟨"out/b/util"⟩]
  aggregators := [⟨"out/a/util/util.dart"⟩, ⟨"out/b/util/util.dart"⟩, ⟨"out/util.dart"⟩, ⟨"out/util.dart"⟩]

/-- The tree that was empty, after that. -/
def utilAfter : LoggedDisk where
  disk.entries.entries := [
    (["out"], .directory),
    (["out", "a"], .directory),
    (["out", "a", "util"], .directory),
    (["out", "a", "util", "foo.dart"], .file (.text (classStub ⟨"Foo"⟩ "Foo"))),
    (["out", "b"], .directory),
    (["out", "b", "util"], .directory),
    (["out", "b", "util", "bar.dart"], .file (.text (classStub ⟨"Bar"⟩ "Bar"))),
    (["out", "a", "util", "util.dart"], .file (.text "// Library file for util\nexport './foo.dart';\n")),
    (["out", "b", "util", "util.dart"], .file (.text "// Library file for util\nexport './bar.dart';\n")),
    (["out", "util.dart"], .file (.text "export './b/util/util.dart';\n"))]
  events := [.bindingsWritten 2, .aggregatorsWritten 4]

theorem ends_utilRecords : (utilRecords.materialize ⟨"out"⟩ true).Ends ⟨{}, []⟩ utilWritten utilAfter := by
  decide +kernel

theorem plainBelow_utilRecords : ∀ p ∈ utilRecords.writtenPaths, PlainBelow ⟨"out"⟩ p := by
  have hpaths : utilRecords.writtenPaths = [⟨"out/a/util/foo.dart"⟩, ⟨"out/b/util/bar.dart"⟩] := by decide +kernel
  rw [hpaths]
  intro p hp
  rcases List.mem_pair.mp hp with rfl | rfl
  · exact ⟨["a", "util"], "foo.dart", by decide +kernel, by decide +kernel⟩
  · exact ⟨["b", "util"], "bar.dart", by decide +kernel, by decide +kernel⟩

/-- Of two folders with the same last name the second one is exported, and the first one is not. -/
theorem rootExport_read_iff_util :
    utilAfter.disk.read ⟨"out/util.dart"⟩ = .ok "export './b/util/util.dart';\n" ∧
      utilAfter.disk.read ⟨"out/util.dart"⟩ ≠ .ok "export './a/util/util.dart';\n" := by
  have hlinks : Disk.LinkFree {} := Disk.linkFree_of_entries (by simp [Ledger.empty])
  have hfile : exportFile ⟨"out"⟩ ⟨"out/b/util"⟩ = ⟨"out/util.dart"⟩ ∧
      exportFile ⟨"out"⟩ ⟨"out/a/util"⟩ = ⟨"out/util.dart"⟩ := by decide +kernel
  have hrelative : relativeTo? ⟨"out"⟩ (aggregator ⟨"out/b/util"⟩) = some ⟨"b/util/util.dart"⟩ ∧
      relativeTo? ⟨"out"⟩ (aggregator ⟨"out/a/util"⟩) = some ⟨"a/util/util.dart"⟩ := by decide +kernel
  have hslashed : slashed ⟨"b/util/util.dart"⟩ = "b/util/util.dart" ∧
      slashed ⟨"a/util/util.dart"⟩ = "a/util/util.dart" := by decide +kernel
  constructor
  · obtain ⟨relative, hb, hiff, _⟩ :=
      rootExport_read_iff utilRecords ⟨"out"⟩ _ _ _ ends_utilRecords plainBelow_utilRecords
      [⟨"out/a/util"⟩] [] ⟨"out/b/util"⟩ rfl (by decide +kernel)
    obtain rfl := Option.some.inj (hb.symm.trans hrelative.1)
    rw [hfile.1, hslashed.1] at hiff
    exact hiff.mpr (by simp)
  · obtain ⟨relative, ha, hiff, _, hnames, _⟩ :=
      rootExport_read_iff utilRecords ⟨"out"⟩ _ _ _ ends_utilRecords plainBelow_utilRecords
      [] [⟨"out/b/util"⟩] ⟨"out/a/util"⟩ rfl (by decide +kernel)
    obtain rfl := Option.some.inj (ha.symm.trans hrelative.2)
    rw [hfile.2, hslashed.2] at hiff
    intro hread
    exact (hnames hlinks).mp (hiff.mp hread) ⟨"out/b/util"⟩ List.mem_cons_self (by decide +kernel)

/-- The text of a file. -/
def fileText? : Entry → Option String
  | .file (.text s) => some s
  | _ => none

/-- **A folder that the output root does not export**, because a later one has the same last name. -/
theorem not_exportsAt_util :
    (∀ p ∈ utilRecords.writtenPaths, PlainBelow ⟨"out"⟩ p) ∧
      (utilRecords.materialize ⟨"out"⟩ true).Ends ⟨{}, []⟩ utilWritten utilAfter ∧
      ¬ ∀ folder ∈ utilWritten.folders, folder.components ≠ components ⟨"out"⟩ →
        utilAfter.disk.ExportsAt ⟨"out"⟩ folder := by
  refine ⟨plainBelow_utilRecords, ends_utilRecords, fun h => ?_⟩
  obtain ⟨relative, name, text, hrelative, hname, _, hread, before, after, htext⟩ :=
    h ⟨"out/a/util"⟩ (by decide) (by decide +kernel)
  have hsome : relativeTo? ⟨"out"⟩ (aggregator ⟨"out/a/util"⟩) = some ⟨"a/util/util.dart"⟩ := by decide +kernel
  obtain rfl := Option.some.inj (hrelative.symm.trans hsome)
  obtain ⟨place, hplace, hentry⟩ := Disk.exists_of_read hread
  -- Directly in the output root there is one file only.
  have hlinks : utilAfter.disk.LinkFree := Disk.linkFree_of_entries (by decide +kernel)
  have hroot : place = [ofString "out", name] := by
    rw [hlinks.fileAt? hplace, Disk.placeOf, hname.components_join, List.foldl_append]
    have hwd : (components ⟨"out"⟩).foldl Place.descend utilAfter.disk.workingDirectory = [ofString "out"] := by
      decide +kernel
    rw [hwd]
    rfl
  have honly : ∀ e ∈ utilAfter.disk.entries.entries, e.1.length = 2 →
      ∀ c ∈ fileText? e.2, c = "export './b/util/util.dart';\n" := by
    decide +kernel
  have hutil : text = "export './b/util/util.dart';\n" :=
    honly _ (Disk.mem_entries_of_entryAt hentry (by rw [hroot]; simp)) (by rw [hroot]; rfl) text rfl
  have hinfix : (exportStatement (slashed ⟨"a/util/util.dart"⟩)).toList <:+: "export './b/util/util.dart';\n".toList :=
    ⟨before.toList, after.toList, by rw [← hutil, htext, String.toList_append, String.toList_append]⟩
  exact absurd hinfix (by decide +kernel)

end OutputRecords

end InteropBindings
