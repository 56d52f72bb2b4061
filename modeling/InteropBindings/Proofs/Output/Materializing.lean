import InteropBindings.Output.Materializing
import InteropBindings.Proofs.Disk.Places
import InteropBindings.Proofs.Files.Rewriting
import InteropBindings.Proofs.Path.Order
import InteropBindings.Proofs.Sorted
import Mathlib.Data.List.Forall2

/-!
# What materializing writes

Materializing is a sequence of writes: the files of the records with text in order, then the aggregator of each folder,
then one export at the output root for each folder (`OutputRecords.written_of_materialize`).
-/

namespace InteropBindings

open Disk (Write WritesAll)

variable {s s' : LoggedDisk}

/-! ## Jobs that write for each element of a list -/

/-- Each of some elements has one file written for it, in a state between the first and the last one. -/
theorem writesAll_of_mapM {α β : Type} {R : LoggedDisk → LoggedDisk → Prop} [Std.Refl R] [Trans R R R]
    {job : α → Job (StateM LoggedDisk) β} {answer : α → β} {written : LoggedDisk → α → Write → Prop}
    {told : α → List Event} {xs : List α} {bs : List β} (hjob : ∀ x ∈ xs, ∀ s b s', (job x).Ends s b s' →
      b = answer x ∧ (∃ w, written s x w ∧ s.disk.Stores w s'.disk) ∧ s'.events = s.events ++ told x ∧ R s s')
    (h : Job.Ends (xs.mapM job) s bs s') :
    bs = xs.map answer ∧
      (∃ ws, List.Forall₂ (fun x w => ∃ s₁, R s s₁ ∧ R s₁ s' ∧ written s₁ x w) xs ws ∧ WritesAll s.disk ws s'.disk) ∧
      s'.events = s.events ++ xs.flatMap told ∧ R s s' := by
  induction xs generalizing s bs with
  | nil =>
    rw [List.mapM_nil, Job.ends_pure] at h
    obtain ⟨rfl, rfl⟩ := h
    exact ⟨rfl, ⟨[], .nil, rfl⟩, by simp, Std.Refl.refl s'⟩
  | cons x xs ih =>
    obtain ⟨b, s₁, rest, hx, hxs, rfl⟩ := Job.ends_mapM_cons.mp h
    obtain ⟨rfl, ⟨w, hw, hstores⟩, htold, hR⟩ := hjob x List.mem_cons_self s b s₁ hx
    obtain ⟨rfl, ⟨ws, hws, hrest⟩, htold', hR'⟩ := ih (fun y hy => hjob y (List.mem_cons_of_mem _ hy)) hxs
    have hwhole : R s s' := Trans.trans hR hR'
    refine ⟨rfl, ⟨w :: ws, .cons ⟨s, Std.Refl.refl s, hwhole, hw⟩ ?_, s₁.disk, hstores, hrest⟩, ?_, hwhole⟩
    · exact hws.imp fun _ _ ⟨s₂, h₁, h₂, hw'⟩ => ⟨s₂, Trans.trans hR h₁, h₂, hw'⟩
    · rw [htold', htold, List.flatMap_cons, List.append_assoc]

/-! ## Aggregators -/

/-- The name of a folder, as it is shown. -/
def Path.shownName (folder : Path) : String := (folder.fileName.getD "").shown

theorem Path.shownName_eq {folder : Path} {name : RawText} (h : folder.fileName = some name) :
    folder.shownName = name.shown := by
  rw [shownName, h, Option.getD_some]

/-- The file name of the aggregator of a folder. -/
def Path.aggregatorFile (folder : Path) : String := aggregatorName folder.shownName

/-- The path of the aggregator in a folder. -/
def Path.aggregator (folder : Path) : Path := folder.join folder.aggregatorFile

/-- An aggregator of a folder, which exports some files. -/
def IsFolderAggregator (folder : Path) (w : Write) : Prop :=
  w.1 = folder.aggregator ∧ ∃ files, w.2 = folderAggregator folder.shownName files

theorem IsFolderAggregator.map_fst {folders : List Path} {ws : List Write}
    (h : List.Forall₂ IsFolderAggregator folders ws) :
    ws.map Prod.fst = folders.map Path.aggregator := by
  induction h with
  | nil => rfl
  | cons hw _ ih => rw [List.map_cons, List.map_cons, hw.1, ih]

/-- Each of the aggregators is that of a folder. -/
theorem IsFolderAggregator.exists_of_mem {folders : List Path} {ws : List Write}
    (h : List.Forall₂ IsFolderAggregator folders ws)
    {w : Write} (hw : w ∈ ws) : ∃ folder ∈ folders, IsFolderAggregator folder w := by
  induction h with
  | nil => cases hw
  | cons hfirst _ ih =>
    rcases List.mem_cons.mp hw with rfl | hw
    · exact ⟨_, List.mem_cons_self, hfirst⟩
    · obtain ⟨folder, hfolder, hw⟩ := ih hw
      exact ⟨folder, List.mem_cons_of_mem _ hfolder, hw⟩

/-- The file at the output root that is meant for a folder. -/
def exportFile (root folder : Path) : Path := root.join folder.aggregatorFile

/-- The export of a folder at the output root, which names the aggregator of the folder from there. -/
def rootExport (root folder : Path) : Write :=
  (exportFile root folder,
    exportStatement ((Path.relativeTo? root folder.aggregator).getD ⟨""⟩).slashed ++ "\n")

/-- Different names give different file names. -/
theorem aggregatorName_inj {name name' : String} : aggregatorName name = aggregatorName name' ↔ name = name' :=
  String.append_left_inj ".dart"

theorem isName_aggregatorFile {folder : Path} (h : folder.fileName.isSome) : Path.IsName folder.aggregatorFile := by
  obtain ⟨name, hname⟩ := Option.isSome_iff_exists.mp h
  obtain ⟨around, hcomponents⟩ := Path.fileName_eq_some_iff.mp hname
  have hisName : Path.IsName name := Path.isName_of_mem_components (p := folder) (by rw [hcomponents]; simp)
  rw [Path.aggregatorFile, Path.shownName_eq hname, aggregatorName, RawText.ofString_append]
  exact Path.isName_append hisName.shown.2.2.2 (by decide) (by decide)

theorem back_of_aggregatorFile {folder : Path} {name : RawText} (hname : folder.fileName = some name)
    (h : '\\' ∈ folder.aggregatorFile.toList) : backslash ∈ name.toList := by
  rw [Path.aggregatorFile, Path.shownName_eq hname, aggregatorName, String.toList_append, List.mem_append] at h
  exact RawText.mem_of_mem_shown (h.resolve_right (by decide)) (by decide)

/-- The export of a folder is written to the file that is meant for it. -/
theorem rootExport_fst (root folder : Path) : (rootExport root folder).1 = exportFile root folder := by
  rw [rootExport]

theorem rootExport_eq (root folder : Path) :
    (exportFile root folder, (rootExport root folder).2) = rootExport root folder := by
  rw [rootExport]

theorem folderName_eq_ok_iff {folder : Path} {name : String} :
    folderName folder = .ok name ↔ folder.fileName.isSome ∧ folder.shownName = name := by
  unfold folderName Path.shownName
  cases folder.fileName <;> simp

/-- The text of the aggregator of a folder with some entries. -/
def folderText (folder : Path) (entries : List (RawText × Kind)) : String :=
  folderAggregator folder.shownName (exportedFiles folder.shownName entries)

/-- **Writing the aggregator** of a folder is writing one file, from the entries that the folder has then. -/
theorem ends_writeFolderAggregator_iff {folder path : Path} : (writeFolderAggregator folder).Ends s path s' ↔
    path = folder.aggregator ∧ folder.fileName.isSome ∧ ∃ entries, s.disk.list folder = .ok entries ∧
      Job.Ends (writeFile folder.aggregator (folderText folder entries)) s () s' := by
  unfold writeFolderAggregator folderText
  constructor
  · intro h
    obtain ⟨name, s₁, hname, h₁⟩ := Job.ends_bind.mp h
    obtain ⟨hname', rfl⟩ := Job.ends_ofResult.mp hname
    obtain ⟨hnamed, rfl⟩ := folderName_eq_ok_iff.mp hname'
    obtain ⟨entries, s₂, hlist, h₂⟩ := Job.ends_bind.mp h₁
    rw [Job.ends_allowed, run_list, Prod.mk.injEq] at hlist
    obtain ⟨hentries, rfl⟩ := hlist
    obtain ⟨_, s₃, hwrite, hpure⟩ := Job.ends_bind.mp h₂
    obtain ⟨rfl, rfl⟩ := Job.ends_pure.mp hpure
    exact ⟨rfl, hnamed, entries, hentries, hwrite⟩
  · rintro ⟨rfl, hnamed, entries, hentries, hwrite⟩
    refine Job.ends_bind.mpr ⟨_, s, Job.ends_ofResult.mpr ⟨folderName_eq_ok_iff.mpr ⟨hnamed, rfl⟩, rfl⟩, ?_⟩
    refine Job.ends_bind.mpr ⟨entries, s, ?_, ?_⟩
    · rw [Job.ends_allowed, run_list, hentries]
    · exact Job.ends_bind.mpr ⟨(), s', hwrite, Job.ends_pure.mpr ⟨rfl, rfl⟩⟩

/-- **Writing the export** of a folder at the output root is writing one file. -/
theorem ends_writeRootExport_iff {root folder path : Path} : (writeRootExport root folder).Ends s path s' ↔
    path = exportFile root folder ∧ folder.fileName.isSome ∧ (Path.relativeTo? root folder.aggregator).isSome ∧
      Job.Ends (writeFile (exportFile root folder) (rootExport root folder).2) s () s' := by
  unfold writeRootExport rootExport
  constructor
  · intro h
    obtain ⟨name, s₁, hname, h₁⟩ := Job.ends_bind.mp h
    obtain ⟨hname', rfl⟩ := Job.ends_ofResult.mp hname
    obtain ⟨hnamed, rfl⟩ := folderName_eq_ok_iff.mp hname'
    dsimp only at h₁
    rw [← Path.aggregatorFile, ← Path.aggregator] at h₁
    cases hrelative : Path.relativeTo? root folder.aggregator with
    | none =>
      rw [hrelative] at h₁
      exact absurd h₁ Job.not_ends_throw
    | some relative =>
      rw [hrelative] at h₁
      obtain ⟨_, s₂, hwrite, hpure⟩ := Job.ends_bind.mp h₁
      obtain ⟨rfl, rfl⟩ := Job.ends_pure.mp hpure
      refine ⟨rfl, hnamed, rfl, ?_⟩
      rw [Option.getD_some]
      exact hwrite
  · rintro ⟨rfl, hnamed, hbelow, hwrite⟩
    obtain ⟨relative, hrelative⟩ := Option.isSome_iff_exists.mp hbelow
    rw [hrelative, Option.getD_some] at hwrite
    refine Job.ends_bind.mpr ⟨_, s, Job.ends_ofResult.mpr ⟨folderName_eq_ok_iff.mpr ⟨hnamed, rfl⟩, rfl⟩, ?_⟩
    dsimp only
    rw [← Path.aggregatorFile, ← Path.aggregator, hrelative]
    exact Job.ends_bind.mpr ⟨(), s', hwrite, Job.ends_pure.mpr ⟨rfl, rfl⟩⟩

/-! ## Materializing -/

namespace OutputRecords

/-- The files of the records with text. -/
def writes (records : OutputRecords) : List Write :=
  (records.entries.filter fun e => !e.2.isEmpty).map fun e => (⟨e.1⟩, e.2.file)

theorem map_fst_writes (records : OutputRecords) : records.writes.map Prod.fst = records.writtenPaths := by
  rw [writes, writtenPaths, List.map_map, ← List.filterMap_eq_map, List.filterMap_filter]
  refine List.filterMap_congr fun e _ => ?_
  cases e.2.isEmpty <;> rfl

theorem writes_split {records : OutputRecords} {before after : List (String × OutputRecord)} {e : String × OutputRecord}
    (h : records.entries = before ++ e :: after) (he : e.2.isEmpty = false) :
    records.writes = writes ⟨before⟩ ++ (⟨e.1⟩, e.2.file) :: writes ⟨after⟩ := by
  rw [writes, h, List.filter_append, List.filter_cons_of_pos (by rw [he]; rfl), List.map_append,
    List.map_cons, writes, writes]

/-- The files of records with text are those of the records. -/
theorem mem_writes {records : OutputRecords} {w : Write} :
    w ∈ records.writes ↔ ∃ e ∈ records.entries, e.2.isEmpty = false ∧ ((⟨e.1⟩, e.2.file) : Write) = w := by
  simp only [writes, List.mem_map, List.mem_filter, Bool.not_eq_true', and_assoc]

/-- A record stays when no later write leads to its file. -/
theorem read_of_last_record {records : OutputRecords} {before after : List (String × OutputRecord)}
    {e : String × OutputRecord} {d d' : Disk} {rest : List Write} (hwrites : WritesAll d (records.writes ++ rest) d')
    (h : records.entries = before ++ e :: after) (he : e.2.isEmpty = false)
    (hlater : ∀ later ∈ after, later.2.isEmpty = false → ¬ d'.SameFile ⟨later.1⟩ ⟨e.1⟩)
    (hrest : ∀ v ∈ rest, ¬ d'.SameFile v.1 ⟨e.1⟩) : d'.read ⟨e.1⟩ = .ok e.2.file := by
  rw [writes_split h he, List.append_assoc, List.cons_append] at hwrites
  refine hwrites.read_of_last fun v hv => ?_
  rcases List.mem_append.mp hv with hv | hv
  · obtain ⟨later, hmem, hempty, rfl⟩ := mem_writes.mp hv
    exact hlater later hmem hempty
  · exact hrest v hv

theorem exists_mem_pathSet {paths : List Path} {p : Path} (h : p ∈ paths) :
    ∃ q ∈ pathSet paths, p.components = q.components := by
  have hset : ∃ q ∈ pathSet paths, p.order q = .eq := Sorted.exists_mem_ofList h
  obtain ⟨q, hq, horder⟩ := hset
  exact ⟨q, hq, beq_iff_eq.mp (Path.order_eq_iff.mp horder)⟩

theorem exists_of_mem_folders {records : OutputRecords} {folder : Path} (h : folder ∈ records.folders) :
    ∃ p ∈ records.writtenPaths, p.parent = some folder :=
  List.mem_filterMap.mp (Sorted.mem_of_mem_ofList h)

/-- The names of folders spell strings, since keys are strings. -/
theorem isSome_string?_of_mem_folders {records : OutputRecords} {folder : Path} (h : folder ∈ records.folders)
    {n : RawText} (hn : .normal n ∈ folder.components) : n.string?.isSome := by
  obtain ⟨p, hp, hparent⟩ := exists_of_mem_folders h
  rw [← map_fst_writes] at hp
  obtain ⟨v, hv, rfl⟩ := List.mem_map.mp hp
  obtain ⟨e, _, _, rfl⟩ := mem_writes.mp hv
  obtain ⟨c, hc⟩ := Path.exists_of_parent hparent
  refine Path.isSome_string?_text_iff.mp ?_ n (hc ▸ List.mem_append_left _ hn)
  rw [RawText.string?_ofString]
  rfl

/-- Folders of records that are shown alike have the same name. -/
theorem shownName_eq_iff {records : OutputRecords} {folder folder' : Path} (h : folder ∈ records.folders)
    (h' : folder' ∈ records.folders) (hnamed : folder.fileName.isSome) (hnamed' : folder'.fileName.isSome) :
    folder'.shownName = folder.shownName ↔ folder'.fileName = folder.fileName := by
  have hshown : ∀ {p : Path}, p ∈ records.folders → p.fileName.isSome →
      p.fileName = some (RawText.ofString p.shownName) := by
    intro p hp hnamed
    obtain ⟨name, hname⟩ := Option.isSome_iff_exists.mp hnamed
    obtain ⟨around, hcomponents⟩ := Path.fileName_eq_some_iff.mp hname
    rw [Path.shownName_eq hname,
      RawText.isSome_string?_iff.mp (isSome_string?_of_mem_folders hp (by rw [hcomponents]; simp)), hname]
  rw [hshown h hnamed, hshown h' hnamed', Option.some.injEq, RawText.ofString_inj]

/-- What is told of a record without text. -/
def emptyEvents (e : String × OutputRecord) : List Event := if e.2.isEmpty then [.recordEmpty e.1] else []

/-- What is told when an aggregator takes the place of a binding file. -/
def replacedEvents (files : List Path) (folder : Path) : List Event :=
  if files.any folder.aggregator.same then [.bindingReplaced folder.aggregator] else []

theorem ends_writeRecord_iff {e : String × OutputRecord} : (writeRecord e).Ends s () s' ↔
    if e.2.isEmpty then s' = { s with events := s.events ++ [.recordEmpty e.1] }
    else Job.Ends (writeFile ⟨e.1⟩ e.2.file) s () s' := by
  unfold writeRecord
  split
  · exact Job.ends_tellAll
  · rfl

/-- Writing the records. -/
theorem writesAll_of_forM_writeRecord {entries : List (String × OutputRecord)} {u : Unit}
    (h : Job.Ends (entries.forM writeRecord) s u s') :
    WritesAll s.disk (writes ⟨entries⟩) s'.disk ∧ s'.events = s.events ++ entries.flatMap emptyEvents ∧
      Extending (· ∈ (writes ⟨entries⟩).map Prod.fst) s s' := by
  induction entries generalizing s with
  | nil =>
    obtain ⟨_, rfl⟩ : u = () ∧ s' = s := Job.ends_pure.mp h
    exact ⟨rfl, by simp, Std.Refl.refl s'⟩
  | cons e entries ih =>
    obtain ⟨s₁, hwrite, hrest⟩ := Job.ends_forM_cons.mp h
    obtain ⟨hwrites, hevents, hextends⟩ := ih hrest
    rw [List.flatMap_cons, emptyEvents, hevents]
    rw [ends_writeRecord_iff] at hwrite
    by_cases hempty : e.2.isEmpty = true
    · rw [if_pos hempty] at hwrite
      have hskip : writes ⟨e :: entries⟩ = writes ⟨entries⟩ := by simp [writes, hempty]
      rw [hskip, if_pos hempty]
      subst hwrite
      exact ⟨hwrites, List.append_assoc .., hextends⟩
    · rw [if_neg hempty] at hwrite
      obtain ⟨hstores, hevents₁⟩ := stores_of_writeFile hwrite
      have hfirst : writes ⟨e :: entries⟩ = (⟨e.1⟩, e.2.file) :: writes ⟨entries⟩ := by simp [writes, hempty]
      rw [hfirst, if_neg hempty, hevents₁]
      have hfirst : Extending (· ∈ ((⟨e.1⟩, e.2.file) :: writes ⟨entries⟩).map Prod.fst) s s₁ :=
        fun hplain => extends_of_writeFile hwrite hplain List.mem_cons_self
      have hlater : Extending (· ∈ ((⟨e.1⟩, e.2.file) :: writes ⟨entries⟩).map Prod.fst) s₁ s' :=
        hextends.mono fun _ => List.mem_cons_of_mem _
      exact ⟨⟨s₁.disk, hstores, hwrites⟩, rfl, Trans.trans hfirst hlater⟩

/-- Writing the aggregator of a folder, and telling of a binding file in its place. -/
theorem ends_aggregate_iff {files : List Path} {folder path : Path} : (aggregate files folder).Ends s path s' ↔
    ∃ s₁, (writeFolderAggregator folder).Ends s path s₁ ∧
      s' = { s₁ with events := s₁.events ++ replacedEvents files folder } := by
  unfold aggregate
  rw [Job.ends_bind]
  constructor
  · rintro ⟨p, s₁, hwrite, h₁⟩
    obtain ⟨rfl, -⟩ := ends_writeFolderAggregator_iff.mp hwrite
    refine ⟨s₁, ?_⟩
    rw [replacedEvents]
    split at h₁
    · next hreplaced =>
      obtain ⟨_, s₂, htell, hpure⟩ := Job.ends_bind.mp h₁
      obtain ⟨rfl, rfl⟩ := Job.ends_pure.mp hpure
      rw [if_pos hreplaced]
      exact ⟨hwrite, Job.ends_tellAll.mp htell⟩
    · next hnot =>
      obtain ⟨rfl, rfl⟩ := Job.ends_pure.mp h₁
      rw [if_neg hnot, List.append_nil]
      exact ⟨hwrite, rfl⟩
  · rintro ⟨s₁, hwrite, rfl⟩
    obtain ⟨rfl, -⟩ := ends_writeFolderAggregator_iff.mp hwrite
    refine ⟨_, s₁, hwrite, ?_⟩
    rw [replacedEvents]
    split
    · exact Job.ends_bind.mpr ⟨(), _, Job.ends_tellAll.mpr rfl, Job.ends_pure.mpr ⟨rfl, rfl⟩⟩
    · rw [List.append_nil]
      exact Job.ends_pure.mpr ⟨rfl, rfl⟩

/-- The aggregator of a folder from what the folder holds in a state. -/
def AggregatesIn (s : LoggedDisk) (folder : Path) (v : Write) : Prop :=
  folder.fileName.isSome ∧ ∃ entries, s.disk.list folder = .ok entries ∧
    v = (folder.aggregator, folderText folder entries)

theorem AggregatesIn.isFolderAggregator {folder : Path} {v : Write} (h : AggregatesIn s folder v) :
    IsFolderAggregator folder v := by
  obtain ⟨_, entries, _, rfl⟩ := h
  rw [IsFolderAggregator, folderText]
  dsimp only
  exact ⟨rfl, _, rfl⟩

/-- What writing the aggregator of a folder changes. -/
theorem stores_of_aggregate {files : List Path} {folder path : Path} (h : (aggregate files folder).Ends s path s') :
    path = folder.aggregator ∧ (∃ w, AggregatesIn s folder w ∧ s.disk.Stores w s'.disk) ∧
      s'.events = s.events ++ replacedEvents files folder ∧
      ∀ {written : Path → Prop}, written folder.aggregator → Extending written s s' := by
  obtain ⟨s₁, hwrite, rfl⟩ := ends_aggregate_iff.mp h
  obtain ⟨rfl, hnamed, entries, hentries, hfile⟩ := ends_writeFolderAggregator_iff.mp hwrite
  obtain ⟨hstores, hquiet⟩ := stores_of_writeFile hfile
  refine ⟨rfl, ⟨_, ⟨hnamed, entries, hentries, rfl⟩, hstores⟩, ?_, fun hwritten => ?_⟩
  · rw [hquiet]
  · have hextends : Extending _ s s₁ := fun hplain => extends_of_writeFile hfile hplain hwritten
    exact hextends

/-- What writing the export of a folder at the output root changes. -/
theorem stores_of_writeRootExport {root folder path : Path} (h : (writeRootExport root folder).Ends s path s') :
    path = exportFile root folder ∧
      (∃ w, ((Path.relativeTo? root folder.aggregator).isSome ∧ rootExport root folder = w) ∧ s.disk.Stores w s'.disk) ∧
      s'.events = s.events ++ [] ∧ ∀ {written : Path → Prop}, written (exportFile root folder) →
        Extending written s s' := by
  obtain ⟨rfl, _, hbelow, hfile⟩ := ends_writeRootExport_iff.mp h
  obtain ⟨hstores, hquiet⟩ := stores_of_writeFile hfile
  rw [rootExport_eq] at hstores
  refine ⟨rfl, ⟨rootExport root folder, ⟨hbelow, rfl⟩, hstores⟩, ?_, fun hwritten hplain => ?_⟩
  · rw [hquiet, List.append_nil]
  · exact extends_of_writeFile hfile hplain hwritten

/-- The steps of materializing: the records, the aggregators in the folders, and the exports at the output root. -/
theorem ends_materialize_iff {records : OutputRecords} {root : Path} {w : Materialized} :
    (records.materialize root true).Ends s w s' ↔ ∃ s₁ inFolders s₂ atRoot s₃,
      Job.Ends (records.entries.forM writeRecord) s () s₁ ∧
      Job.Ends (records.folders.mapM (aggregate records.files))
        { s₁ with events := s₁.events ++ [.bindingsWritten records.files.length] } inFolders s₂ ∧
      Job.Ends (records.folders.mapM (writeRootExport root)) s₂ atRoot s₃ ∧
      w = ⟨records.files, records.folders, inFolders ++ atRoot⟩ ∧
      s' = { s₃ with events := s₃.events ++ [.aggregatorsWritten (inFolders ++ atRoot).length] } := by
  unfold materialize
  rw [if_pos rfl]
  simp only [Job.ends_bind, Job.ends_tellAll, Job.ends_pure]
  constructor
  · rintro ⟨_, s₁, hrecords, _, s₂, rfl, inFolders, s₃, hfolders, atRoot, s₄, hroot, _, s₅, rfl, rfl, rfl⟩
    exact ⟨s₁, inFolders, s₃, atRoot, s₄, hrecords, hfolders, hroot, rfl, rfl⟩
  · rintro ⟨s₁, inFolders, s₂, atRoot, s₃, hrecords, hfolders, hroot, rfl, rfl⟩
    exact ⟨(), s₁, hrecords, (), _, rfl, inFolders, s₂, hfolders, atRoot, s₃, hroot, (), _, rfl, rfl, rfl⟩

/-- Materializing without aggregators is writing the records. -/
theorem ends_materialize_bare_iff {records : OutputRecords} {root : Path} {w : Materialized} :
    (records.materialize root false).Ends s w s' ↔ ∃ s₁, Job.Ends (records.entries.forM writeRecord) s () s₁ ∧
      w = ⟨records.files, records.folders, []⟩ ∧
      s' = { s₁ with events := s₁.events ++ [.bindingsWritten records.files.length] } := by
  unfold materialize
  rw [if_neg Bool.false_ne_true]
  simp only [Job.ends_bind, Job.ends_tellAll, Job.ends_pure]
  constructor
  · rintro ⟨_, s₁, hrecords, _, s₂, rfl, rfl, rfl⟩
    exact ⟨s₁, hrecords, rfl, rfl⟩
  · rintro ⟨s₁, hrecords, rfl, rfl⟩
    exact ⟨(), s₁, hrecords, (), _, rfl, rfl, rfl⟩

/-- The paths that aggregators are written under. -/
def IsAggregatorPath (records : OutputRecords) (root p : Path) : Prop :=
  ∃ folder ∈ records.folders, p = folder.aggregator ∨ p = exportFile root folder

/-- **The writes of materializing** with aggregators: those of the records, then one for each folder from what the
folder holds when it comes to it, then the exports at the output root. -/
theorem exists_writes_of_materialize {records : OutputRecords} {root : Path} {w : Materialized}
    (h : (records.materialize root true).Ends s w s') : ∃ s₁ inFolders,
      Extending (· ∈ records.writtenPaths) s s₁ ∧ Extending (records.IsAggregatorPath root) s₁ s' ∧
      List.Forall₂ (fun folder v => ∃ s₂, Extending (records.IsAggregatorPath root) s₁ s₂ ∧
        Extending (records.IsAggregatorPath root) s₂ s' ∧ AggregatesIn s₂ folder v) records.folders inFolders ∧
      WritesAll s.disk (records.writes ++ inFolders ++ records.folders.map (rootExport root)) s'.disk ∧
      (∀ folder ∈ records.folders, (Path.relativeTo? root folder.aggregator).isSome) ∧
      w = ⟨records.files, records.folders, records.folders.map Path.aggregator ++
        records.folders.map (exportFile root)⟩ ∧
      s'.events = s.events ++ records.entries.flatMap emptyEvents ++ [.bindingsWritten records.files.length] ++
        records.folders.flatMap (replacedEvents records.files) ++ [.aggregatorsWritten w.aggregators.length] := by
  obtain ⟨s₁, paths, s₂, paths', s₃, hrecords, hfolders, hroot, rfl, rfl⟩ := ends_materialize_iff.mp h
  obtain ⟨hwrites, hevents, hextends⟩ := writesAll_of_forM_writeRecord hrecords
  rw [map_fst_writes] at hextends
  obtain ⟨rfl, ⟨ws, hws, hwrites'⟩, hevents', hextends'⟩ :=
    writesAll_of_mapM (R := Extending (records.IsAggregatorPath root)) (fun folder hfolder s b s' hends =>
      have ⟨hpath, hstores, hevents, hextends⟩ := stores_of_aggregate hends
      ⟨hpath, hstores, hevents, hextends ⟨folder, hfolder, .inl rfl⟩⟩) hfolders
  obtain ⟨rfl, ⟨vs, hvs, hwrites''⟩, hevents'', hextends''⟩ :=
    writesAll_of_mapM (R := Extending (records.IsAggregatorPath root)) (fun folder hfolder s b s' hends =>
      have ⟨hpath, hstores, hevents, hextends⟩ := stores_of_writeRootExport hends
      ⟨hpath, hstores, hevents, hextends ⟨folder, hfolder, .inr rfl⟩⟩) hroot
  -- The texts of the exports do not depend on the state.
  have hexports : List.Forall₂ (fun folder v => (Path.relativeTo? root folder.aggregator).isSome ∧
    rootExport root folder = v)
      records.folders vs := hvs.imp fun _ _ ⟨_, _, _, hv⟩ => hv
  rw [List.forall₂_and_left, ← List.forall₂_map_left_iff, List.forall₂_eq_eq_eq] at hexports
  obtain ⟨hbelow, rfl⟩ := hexports
  -- Events do not matter here.
  have hfirst : Extending (records.IsAggregatorPath root) s₁ s₂ := hextends'
  have hlast : ∀ events, Extending (records.IsAggregatorPath root) s₂ ⟨s₃.disk, events⟩ := fun _ => hextends''
  refine ⟨s₁, ws, hextends, Trans.trans hfirst (hlast _), hws.imp ?_, ?_, hbelow, rfl, ?_⟩
  · rintro folder v ⟨t, hbefore, hafter, hv⟩
    have hbefore' : Extending (records.IsAggregatorPath root) s₁ t := hbefore
    exact ⟨t, hbefore', Trans.trans hafter (hlast _), hv⟩
  · exact WritesAll.append_iff.mpr ⟨_, WritesAll.append_iff.mpr ⟨_, hwrites, hwrites'⟩, hwrites''⟩
  · have hquiet : records.folders.flatMap (fun _ => ([] : List Event)) = [] := by simp
    rw [hevents'', hevents', hevents, hquiet, List.append_nil]

/-- What materializing with aggregators has written. -/
structure Written (records : OutputRecords) (root : Path) (s : LoggedDisk) (w : Materialized) (s' : LoggedDisk) :
    Prop where
  files : w.files = records.files
  folders : w.folders = records.folders
  aggregators : w.aggregators =
    records.folders.map Path.aggregator ++ records.folders.map (exportFile root)
  /-- All folders have names. -/
  named : ∀ folder ∈ records.folders, folder.fileName.isSome
  /-- All folders lie below the output root. -/
  below : ∀ folder ∈ records.folders, (Path.relativeTo? root folder.aggregator).isSome
  writes : ∃ inFolders, List.Forall₂ IsFolderAggregator records.folders inFolders ∧
    WritesAll s.disk (records.writes ++ inFolders ++ records.folders.map (rootExport root)) s'.disk
  events : s'.events = s.events ++ records.entries.flatMap emptyEvents ++ [.bindingsWritten records.files.length] ++
    records.folders.flatMap (replacedEvents records.files) ++ [.aggregatorsWritten w.aggregators.length]

/-- **What materializing writes**, in order. -/
theorem written_of_materialize {records : OutputRecords} {root : Path} {w : Materialized}
    (h : (records.materialize root true).Ends s w s') : records.Written root s w s' := by
  obtain ⟨_, inFolders, _, _, hin, hwrites, hbelow, rfl, hevents⟩ := exists_writes_of_materialize h
  have hfolders := hin.imp fun _ _ ⟨_, _, _, hv⟩ => And.intro hv.1 hv.isFolderAggregator
  obtain ⟨hnamed, hfolders⟩ := (List.forall₂_and_left _ _).mp hfolders
  exact ⟨rfl, rfl, rfl, hnamed, hbelow, ⟨inFolders, hfolders, hwrites⟩, hevents⟩

/-- **The records are written first**, and nothing else without aggregators. -/
theorem writesAll_of_materialize {records : OutputRecords} {root : Path} {aggregators : Bool} {w : Materialized}
    (h : (records.materialize root aggregators).Ends s w s') :
    w.files = records.files ∧ ∃ rest, WritesAll s.disk (records.writes ++ rest) s'.disk ∧
      (aggregators = false → rest = []) := by
  cases aggregators with
  | true =>
    have hw := written_of_materialize h
    obtain ⟨inFolders, _, hwrites⟩ := hw.writes
    rw [List.append_assoc] at hwrites
    exact ⟨hw.files, _, hwrites, fun hno => nomatch hno⟩
  | false =>
    obtain ⟨s₁, hrecords, rfl, rfl⟩ := ends_materialize_bare_iff.mp h
    refine ⟨rfl, [], ?_, fun _ => rfl⟩
    rw [List.append_nil]
    exact (writesAll_of_forM_writeRecord hrecords).1

/-- The paths that files are written under. -/
def IsOutputPath (records : OutputRecords) (root p : Path) :
    Prop := p ∈ records.writtenPaths ∨ records.IsAggregatorPath root p

/-- **Materializing extends** a plain tree by files under the paths of records and aggregators. -/
theorem extending_materialize {records : OutputRecords} {root : Path} {aggregators : Bool} {w : Materialized}
    (h : (records.materialize root aggregators).Ends s w s') :
    Extending (records.IsOutputPath root) s s' := by
  cases aggregators with
  | true =>
    obtain ⟨s₁, _, hrecords, haggregators, _⟩ := exists_writes_of_materialize h
    have hfirst : Extending (records.IsOutputPath root) s s₁ := hrecords.mono fun _ => Or.inl
    have hlater : Extending (records.IsOutputPath root) s₁ s' := haggregators.mono fun _ => Or.inr
    exact Trans.trans hfirst hlater
  | false =>
    obtain ⟨s₁, hrecords, rfl, rfl⟩ := ends_materialize_bare_iff.mp h
    obtain ⟨_, _, hextends⟩ := writesAll_of_forM_writeRecord hrecords
    rw [map_fst_writes] at hextends
    have htold : ∀ events, Extending (· ∈ records.writtenPaths) s ⟨s₁.disk, events⟩ := fun _ => hextends
    exact (htold _).mono fun _ => Or.inl

namespace Written

variable {records : OutputRecords} {root : Path} {w : Materialized}

/-- The aggregators are written under their paths. -/
theorem map_fst (h : records.Written root s w s') {inFolders : List Write}
    (hin : List.Forall₂ IsFolderAggregator records.folders inFolders) :
    (inFolders ++ records.folders.map (rootExport root)).map Prod.fst = w.aggregators := by
  have hroot : Prod.fst ∘ rootExport root = exportFile root := funext (rootExport_fst root)
  rw [List.map_append, IsFolderAggregator.map_fst hin, List.map_map, hroot, h.aggregators]

theorem isSome_fileAt? (h : records.Written root s w s') {p : Path}
    (hp : p ∈ records.writtenPaths ∨ p ∈ w.aggregators) :
    (s'.disk.fileAt? p).isSome := by
  obtain ⟨inFolders, hin, hwrites⟩ := h.writes
  rw [List.append_assoc] at hwrites
  rw [← List.mem_append, ← map_fst_writes, ← h.map_fst hin, ← List.map_append] at hp
  obtain ⟨v, hv, rfl⟩ := List.mem_map.mp hp
  exact hwrites.isSome_fileAt? hv

theorem linkFree (h : records.Written root s w s') (hlinks : s.disk.LinkFree) : s'.disk.LinkFree := by
  obtain ⟨_, _, hwrites⟩ := h.writes
  exact hwrites.grows.linkFree hlinks

theorem components_aggregator (h : records.Written root s w s') {folder : Path} (hfolder : folder ∈ records.folders) :
    folder.aggregator.components = folder.components ++ [.normal folder.aggregatorFile] :=
  (isName_aggregatorFile (h.named folder hfolder)).components_join folder

theorem components_exportFile (h : records.Written root s w s') {folder : Path} (hfolder : folder ∈ records.folders) :
    (exportFile root folder).components = root.components ++ [.normal folder.aggregatorFile] :=
  (isName_aggregatorFile (h.named folder hfolder)).components_join root

end Written

end OutputRecords

end InteropBindings
