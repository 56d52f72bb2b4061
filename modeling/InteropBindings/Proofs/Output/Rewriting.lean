import InteropBindings.Proofs.Output.Materializing

/-!
# Materializing again

Materializing the same records again, in the tree that came out the first time, changes nothing
(`OutputRecords.exists_materialize_again`). Files and directories that came after the aggregator of a folder make no
difference to it: in a folder that is not the output root only its own aggregator can be new, which it does not export
(`OutputRecords.folderText_eq`); at the output root the aggregator is overwritten by the export of the folder.
-/

namespace InteropBindings

open Disk (Write WritesAll SameShape IsPlain Extends)

variable {s s' : LoggedDisk} {d : Disk}

theorem Disk.placeOf_join (d : Disk) (p : Path) {name : RawText} (h : Path.IsName name) :
    d.placeOf (p.join name) = d.placeOf p ++ [name] := by
  rw [placeOf, placeOf, h.components_join, List.foldl_append]
  rfl

theorem Disk.SameShape.isSome_fileAt? {d' : Disk} (h : SameShape d d') (hlinks : d.LinkFree) {p : Path}
    (hp : (d.fileAt? p).isSome) : (d'.fileAt? p).isSome := by
  obtain ⟨place, hplace⟩ := Option.isSome_iff_exists.mp hp
  rw [(h.grows hlinks).fileAt? hplace]
  rfl

theorem Disk.overwriteAll_append (d : Disk) (ws vs : List Write) :
    d.overwriteAll (ws ++ vs) = (d.overwriteAll ws).overwriteAll vs :=
  List.foldl_append ..

/-! ## Jobs that overwrite files -/

/-- A file that is there is written again, in any tree of the same shape. -/
theorem ends_writeFile_of_sameShape (hlinks : d.LinkFree) (hs : SameShape d s.disk) {p : Path}
    (hp : (d.fileAt? p).isSome)
    (text : String) : Job.Ends (writeFile p text) s () { s with disk := s.disk.overwrite (p, text) } ∧
      SameShape d (s.disk.overwrite (p, text)) := by
  have hlinks' := (hs.grows hlinks).linkFree hlinks
  have hthere := hs.isSome_fileAt? hlinks hp
  exact ⟨ends_writeFile_of_fileAt? hlinks' hthere, hs.trans (hlinks'.sameShape_overwrite hthere)⟩

/-- Each of some elements has a file overwritten. -/
theorem exists_ends_mapM {α β : Type} {job : α → Job (StateM LoggedDisk) β} {answer : α → β} {write : α → Write}
    {xs : List α} (hjob : ∀ x ∈ xs, ∀ s, SameShape d s.disk → ∃ s', (job x).Ends s
      (answer x) s' ∧ s'.disk = s.disk.overwrite (write x) ∧
      SameShape d s'.disk)
    (hs : SameShape d s.disk) :
    ∃ s', Job.Ends (xs.mapM job) s (xs.map answer) s' ∧ s'.disk = s.disk.overwriteAll (xs.map write) ∧
      SameShape d s'.disk := by
  induction xs generalizing s with
  | nil => exact ⟨s, Job.ends_pure.mpr ⟨rfl, rfl⟩, rfl, hs⟩
  | cons x xs ih =>
    obtain ⟨s₁, hx, hdisk, hs₁⟩ := hjob x List.mem_cons_self s hs
    obtain ⟨s₂, hxs, hdisk', hs₂⟩ := ih (fun y hy => hjob y (List.mem_cons_of_mem _ hy)) hs₁
    refine ⟨s₂, Job.ends_mapM_cons.mpr ⟨_, s₁, _, hx, hxs, rfl⟩, ?_, hs₂⟩
    rw [hdisk', hdisk]
    rfl

namespace OutputRecords

/-- Records are written again. -/
theorem exists_ends_forM_writeRecord {entries : List (String × OutputRecord)} (hlinks : d.LinkFree)
    (hs : SameShape d s.disk) (hthere : ∀ w ∈ writes ⟨entries⟩, (d.fileAt? w.1).isSome) :
    ∃ s', Job.Ends (entries.forM writeRecord) s () s' ∧ s'.disk = s.disk.overwriteAll (writes ⟨entries⟩) ∧
      SameShape d s'.disk := by
  induction entries generalizing s with
  | nil => exact ⟨s, Job.ends_pure.mpr ⟨rfl, rfl⟩, rfl, hs⟩
  | cons e entries ih =>
    by_cases hempty : e.2.isEmpty = true
    · have hskip : writes ⟨e :: entries⟩ = writes ⟨entries⟩ := by simp [writes, hempty]
      rw [hskip] at hthere ⊢
      let told : LoggedDisk := { s with events := s.events ++ [.recordEmpty e.1] }
      obtain ⟨s', hrest, hdisk, hs'⟩ := ih (s := told) hs hthere
      refine ⟨s', Job.ends_forM_cons.mpr ⟨told, ?_, hrest⟩, hdisk, hs'⟩
      rw [ends_writeRecord_iff, if_pos hempty]
    · have hfirst : writes ⟨e :: entries⟩ = (⟨e.1⟩, e.2.file) :: writes ⟨entries⟩ := by simp [writes, hempty]
      rw [hfirst] at hthere ⊢
      obtain ⟨hwrite, hs₁⟩ := ends_writeFile_of_sameShape hlinks hs (hthere _ List.mem_cons_self) e.2.file
      obtain ⟨s', hrest, hdisk, hs'⟩ := ih (s := { s with disk := s.disk.overwrite (⟨e.1⟩, e.2.file) }) hs₁
        fun w hw => hthere w (List.mem_cons_of_mem _ hw)
      refine ⟨s', Job.ends_forM_cons.mpr ⟨_, ?_, hrest⟩, hdisk, hs'⟩
      rw [ends_writeRecord_iff, if_neg hempty]
      exact hwrite

/-- The aggregator of a folder is written again, from what the folder holds. -/
theorem exists_ends_aggregate {files : List Path} {folder : Path} (hplain : d.IsPlain) (hs : SameShape d s.disk)
    (hnamed : folder.fileName.isSome) (hthere : (d.fileAt? folder.aggregator).isSome)
    (hfolder : d.resolve true folder = .ok (.entry (d.placeOf folder) .directory)) :
    ∃ s', (aggregate files folder).Ends s folder.aggregator s' ∧
      s'.disk = s.disk.overwrite ((folder.aggregator, folderText folder (d.kinds (d.placeOf folder)))) ∧
        SameShape d s'.disk := by
  obtain ⟨hwrite, hs'⟩ :=
    ends_writeFile_of_sameShape hplain.linkFree hs hthere (folderText folder (d.kinds (d.placeOf folder)))
  have hlist : s.disk.list folder = .ok (d.kinds (d.placeOf folder)) := by
    refine Disk.list_eq_ok_iff.mpr ⟨_, hplain.linkFree.resolve_directory (hs.grows hplain.linkFree) hfolder, ?_⟩
    exact (hs.kinds hplain.nodup _).symm
  refine ⟨_, ends_aggregate_iff.mpr ⟨_, ends_writeFolderAggregator_iff.mpr ⟨rfl, hnamed, _, hlist, hwrite⟩, rfl⟩, rfl,
    hs'⟩

/-- The export of a folder is written again. -/
theorem exists_ends_writeRootExport {root folder : Path} (hlinks : d.LinkFree) (hs : SameShape d s.disk)
    (hnamed : folder.fileName.isSome) (hbelow : (Path.relativeTo? root folder.aggregator).isSome)
    (hthere : (d.fileAt? (exportFile root folder)).isSome) :
    ∃ s', (writeRootExport root folder).Ends s (exportFile root folder) s' ∧
      s'.disk = s.disk.overwrite (rootExport root folder) ∧ SameShape d s'.disk := by
  obtain ⟨hwrite, hs'⟩ := ends_writeFile_of_sameShape hlinks hs hthere (rootExport root folder).2
  rw [rootExport_eq] at hwrite hs'
  exact ⟨_, ends_writeRootExport_iff.mpr ⟨rfl, hnamed, hbelow, hwrite⟩, rfl, hs'⟩

/-! ## The aggregators of folders -/

/-- New entries that are no files or have excluded names make no difference. -/
theorem dartFiles_append {excluded : List String} {entries new : List (RawText × Kind)}
    (h : ∀ e ∈ new, e.2 = .directory ∨ e.1.shown ∈ excluded) :
    dartFiles excluded (entries ++ new) = dartFiles excluded entries := by
  unfold dartFiles
  dsimp only
  rw [List.filterMap_append]
  refine congrArg (List.mergeSort · _)
    ((congrArg _ (List.filterMap_eq_nil_iff.mpr fun e he => ?_)).trans (List.append_nil _))
  rcases h e he with hdirectory | hexcluded
  · simp [hdirectory]
  · simp [hexcluded]

theorem exportedFiles_append {name : String} {entries new : List (RawText × Kind)}
    (h : ∀ e ∈ new, e.2 = .directory ∨ e.1 = RawText.ofString (aggregatorName name)) :
    exportedFiles name (entries ++ new) = exportedFiles name entries :=
  dartFiles_append fun e he => (h e he).imp_right fun hown => by simp [hown, RawText.shown_ofString]

/-- **The aggregator of a folder** that is not the output root is the same for all that comes later. -/
theorem folderText_eq {records : OutputRecords} {root folder : Path} {e : Disk} {place : Place} (he : e.IsPlain)
    (hd : d.IsPlain) (hextends : Extends (records.IsAggregatorPath root) e d)
    (hnamed : ∀ folder ∈ records.folders, folder.fileName.isSome)
    (hfolder : folder ∈ records.folders) (hplace : e.placeOf folder = place) (hroot : e.placeOf root ≠ place) :
    folderText folder (d.kinds place) = folderText folder (e.kinds place) := by
  obtain ⟨new, hkinds, hnew⟩ := hextends.kinds he.toIsTree hd.toIsTree place
  rw [folderText, folderText, hkinds, exportedFiles_append]
  rintro ⟨name, kind⟩ hmem
  obtain ⟨-, hdirectory | ⟨-, p, ⟨other, hother, hp⟩, hplaceOf⟩⟩ := hnew _ hmem
  · exact .inl hdirectory
  right
  have hfile := isName_aggregatorFile (hnamed other hother)
  rcases hp with rfl | rfl
  · rw [Path.aggregator, Disk.placeOf_join _ _ hfile] at hplaceOf
    obtain ⟨hother', hname⟩ := List.append_inj' hplaceOf rfl
    obtain rfl : RawText.ofString other.aggregatorFile = name := List.singleton_inj.mp hname
    -- Folders that lead to one place have the same name.
    obtain ⟨n, hn⟩ := Option.isSome_iff_exists.mp (hnamed folder hfolder)
    obtain ⟨m, hm⟩ := Option.isSome_iff_exists.mp (hnamed other hother)
    obtain ⟨around, hcomponents⟩ := Path.fileName_eq_some_iff.mp hn
    obtain ⟨around', hcomponents'⟩ := Path.fileName_eq_some_iff.mp hm
    rw [← hplace, Disk.placeOf, Disk.placeOf, hcomponents, hcomponents', List.foldl_append,
      List.foldl_append] at hother'
    obtain rfl : m = n := List.singleton_inj.mp (List.append_inj' hother' rfl).2
    dsimp only
    rw [Path.aggregatorFile, Path.shownName, Path.shownName, hn, hm]
  · rw [exportFile, Disk.placeOf_join _ _ hfile] at hplaceOf
    exact absurd (List.append_inj' hplaceOf rfl).1 hroot

/-! ## All writes -/

/-- Each element of the first of two related lists is related to one of the second. -/
theorem exists_of_forall₂ {α β : Type} {R : α → β → Prop} {xs : List α} {ys : List β} (h : List.Forall₂ R xs ys) :
    ∀ x ∈ xs, ∃ y, R x y :=
  ((List.forall₂_and_left xs ys).mp (h.imp fun _ y hxy => ⟨⟨y, hxy⟩, hxy⟩)).1

/-- The writes of materializing with aggregators in a tree. -/
def writesIn (records : OutputRecords) (root : Path) (d : Disk) : List Write :=
  records.writes ++ records.folders.map
    (fun folder => (folder.aggregator, folderText folder (d.kinds (d.placeOf folder)))) ++
    records.folders.map (rootExport root)

/-- The texts that are left are those that were left the first time. -/
theorem lastText_writesIn {records : OutputRecords} {root : Path} {inFolders : List Write} {s₁ : LoggedDisk}
    (hplain₁ : s₁.disk.IsPlain) (hplain : s'.disk.IsPlain) (hnamed : ∀ folder ∈ records.folders, folder.fileName.isSome)
    (hin : List.Forall₂ (fun folder v => ∃ s₂, Extending (records.IsAggregatorPath root) s₁ s₂ ∧
      Extending (records.IsAggregatorPath root) s₂ s' ∧ AggregatesIn s₂ folder v) records.folders inFolders)
      (place : Place) :
    s'.disk.lastText place (records.writesIn root s'.disk) =
      s'.disk.lastText place (records.writes ++ inFolders ++ records.folders.map (rootExport root)) := by
  rw [writesIn]
  simp only [Disk.lastText_append]
  cases hlast : s'.disk.lastText place (records.folders.map (rootExport root)) with
  | some text => rfl
  | none =>
    have hsame : s'.disk.lastText place (records.folders.map fun folder =>
        (folder.aggregator, folderText folder (s'.disk.kinds (s'.disk.placeOf folder)))) =
          s'.disk.lastText place inFolders := by
      refine Disk.lastText_congr (List.forall₂_map_left_iff.mpr ?_)
      refine ((List.forall₂_and_left _ _).mpr ⟨fun folder (h : folder ∈ records.folders) => h, hin⟩).imp ?_
      rintro folder v ⟨hfolder, s₂, hbefore, hafter, _, entries, hlist, rfl⟩
      refine ⟨rfl, fun hplace => ?_⟩
      obtain ⟨_, hplain₂⟩ := hbefore hplain₁
      obtain ⟨hextends, _⟩ := hafter hplain₂
      obtain ⟨q, hresolve, rfl⟩ := Disk.list_eq_ok_iff.mp hlist
      obtain rfl := hplain₂.linkFree.eq_placeOf hresolve
      dsimp only at hplace ⊢
      rw [hextends.placeOf]
      refine folderText_eq hplain₂ hplain hextends hnamed hfolder rfl fun hroot => ?_
      -- At the output root the export of the folder comes later.
      have hfile := isName_aggregatorFile (hnamed folder hfolder)
      refine Disk.lastText_eq_none_iff.mp hlast (rootExport root folder) (List.mem_map_of_mem hfolder) ?_
      rw [rootExport_fst, exportFile, Disk.placeOf_join _ _ hfile, ← hplace, Path.aggregator,
        Disk.placeOf_join _ _ hfile, hextends.placeOf, hextends.placeOf, hroot]
    rw [hsame]

/-- Where all files and folders are there, materializing overwrites the files. -/
theorem exists_ends_materialize {records : OutputRecords} {root : Path} (hplain : s.disk.IsPlain)
    (hnamed : ∀ folder ∈ records.folders, folder.fileName.isSome)
    (hbelow : ∀ folder ∈ records.folders, (Path.relativeTo? root folder.aggregator).isSome)
    (hfolders : ∀ folder ∈ records.folders, s.disk.resolve true folder = .ok
      (.entry (s.disk.placeOf folder) .directory))
    (hrecords : ∀ v ∈ records.writes, (s.disk.fileAt? v.1).isSome)
    (haggregators : ∀ folder ∈ records.folders, (s.disk.fileAt? folder.aggregator).isSome)
    (hexports : ∀ folder ∈ records.folders, (s.disk.fileAt? (exportFile root folder)).isSome) :
    ∃ s', (records.materialize root true).Ends s
        ⟨records.files, records.folders, records.folders.map Path.aggregator ++
          records.folders.map (exportFile root)⟩ s' ∧
      s'.disk = s.disk.overwriteAll (records.writesIn root s.disk) := by
  obtain ⟨s₁, h₁, hdisk₁, hshape₁⟩ := exists_ends_forM_writeRecord hplain.linkFree (SameShape.refl s.disk) hrecords
  let told : LoggedDisk := { s₁ with events := s₁.events ++ [.bindingsWritten records.files.length] }
  obtain ⟨s₂, h₂, hdisk₂, hshape₂⟩ := exists_ends_mapM (s := told) (fun folder hfolder u hu =>
    exists_ends_aggregate hplain hu (hnamed folder hfolder) (haggregators folder hfolder)
      (hfolders folder hfolder)) hshape₁
  obtain ⟨s₃, h₃, hdisk₃, _⟩ := exists_ends_mapM (fun folder hfolder u hu =>
    exists_ends_writeRootExport hplain.linkFree hu (hnamed folder hfolder) (hbelow folder hfolder)
      (hexports folder hfolder)) hshape₂
  refine ⟨_, ends_materialize_iff.mpr ⟨s₁, _, s₂, _, s₃, h₁, h₂, h₃, rfl, rfl⟩, ?_⟩
  change s₃.disk = _
  rw [hdisk₃, hdisk₂]
  change ((s₁.disk.overwriteAll _).overwriteAll _) = _
  rw [hdisk₁, ← Disk.overwriteAll_append, ← Disk.overwriteAll_append, writesIn, List.append_assoc]

/-- **Materializing with aggregators again** changes nothing. -/
theorem exists_aggregating_again {records : OutputRecords} {root : Path} {w : Materialized}
    (h : (records.materialize root true).Ends s w s') (hplain : s.disk.IsPlain) {t : LoggedDisk}
    (ht : t.disk = s'.disk) :
    ∃ t', (records.materialize root true).Ends t w t' ∧ t'.disk = t.disk := by
  obtain ⟨s₁, inFolders, hrecords, hrest, hin, hwrites, hbelow, rfl, -⟩ := exists_writes_of_materialize h
  obtain ⟨_, hplain₁⟩ := hrecords hplain
  obtain ⟨_, hplain'⟩ := hrest hplain₁
  have hwritten := written_of_materialize h
  have hnamed := hwritten.named
  have hpaths : (records.writesIn root s'.disk).map Prod.fst =
      (records.writes ++ inFolders ++ records.folders.map (rootExport root)).map Prod.fst := by
    have hfirst := IsFolderAggregator.map_fst (hin.imp fun _ _ ⟨_, _, _, hv⟩ => hv.isFolderAggregator)
    simp only [writesIn, List.map_append, hfirst, List.map_map, Function.comp_def]
  have hstays : s'.disk.overwriteAll (records.writesIn root s'.disk) = s'.disk :=
    hwrites.overwriteAll_eq hplain.linkFree hplain'.toIsTree hpaths fun place =>
      lastText_writesIn hplain₁ hplain' hnamed hin place
  have hresolve : ∀ folder ∈ records.folders, s'.disk.resolve true folder =
      .ok (.entry (s'.disk.placeOf folder) .directory) := by
    intro folder hfolder
    obtain ⟨v, s₂, hbefore, hafter, _, entries, hlist, _⟩ := exists_of_forall₂ hin folder hfolder
    obtain ⟨_, hplain₂⟩ := hbefore hplain₁
    obtain ⟨hextends, _⟩ := hafter hplain₂
    obtain ⟨place, hleads, _⟩ := Disk.list_eq_ok_iff.mp hlist
    rw [hextends.placeOf, ← hplain₂.linkFree.eq_placeOf hleads]
    exact hplain₂.linkFree.resolve_directory hextends.grows hleads
  have hrecordsThere : ∀ v ∈ records.writes, (s'.disk.fileAt? v.1).isSome := fun v hv =>
    hwritten.isSome_fileAt? (.inl (map_fst_writes records ▸ List.mem_map_of_mem hv))
  have haggregatorsThere : ∀ folder ∈ records.folders, (s'.disk.fileAt? folder.aggregator).isSome :=
    fun folder hfolder =>
    hwritten.isSome_fileAt? (.inr (List.mem_append_left _ (List.mem_map_of_mem hfolder)))
  have hexportsThere : ∀ folder ∈ records.folders, (s'.disk.fileAt? (exportFile root folder)).isSome :=
    fun folder hfolder =>
    hwritten.isSome_fileAt? (.inr (List.mem_append_right _ (List.mem_map_of_mem hfolder)))
  rw [← ht] at hplain' hresolve hrecordsThere haggregatorsThere hexportsThere hstays
  obtain ⟨t', hagain, hdisk⟩ := exists_ends_materialize hplain' hnamed hbelow hresolve hrecordsThere haggregatorsThere
    hexportsThere
  rw [hstays] at hdisk
  exact ⟨t', hagain, hdisk⟩

/-- **Materializing without aggregators again** changes nothing. -/
theorem exists_bare_again {records : OutputRecords} {root : Path} {w : Materialized}
    (h : (records.materialize root false).Ends s w s') (hplain : s.disk.IsPlain) {t : LoggedDisk}
    (ht : t.disk = s'.disk) :
    ∃ t', (records.materialize root false).Ends t w t' ∧ t'.disk = t.disk := by
  obtain ⟨s₁, hrecords, rfl, rfl⟩ := ends_materialize_bare_iff.mp h
  obtain ⟨hwrites, _, hextends⟩ := writesAll_of_forM_writeRecord hrecords
  obtain ⟨_, hplain₁⟩ := hextends hplain
  have hstays : s₁.disk.overwriteAll records.writes = s₁.disk :=
    hwrites.overwriteAll_eq hplain.linkFree hplain₁.toIsTree rfl fun _ => rfl
  have hthere : ∀ v ∈ records.writes, (s₁.disk.fileAt? v.1).isSome := fun v hv => hwrites.isSome_fileAt? hv
  rw [← ht] at hstays hthere hplain₁
  obtain ⟨t₁, hagain, hdisk, _⟩ := exists_ends_forM_writeRecord hplain₁.linkFree (SameShape.refl t.disk) hthere
  refine ⟨_, ends_materialize_bare_iff.mpr ⟨t₁, hagain, rfl, rfl⟩, ?_⟩
  rw [← hstays, ← hdisk]

/-- **Materializing again** changes nothing. -/
theorem exists_materialize_again {records : OutputRecords} {root : Path} {aggregators : Bool} {w : Materialized}
    (h : (records.materialize root aggregators).Ends s w s') (hplain : s.disk.IsPlain) {t : LoggedDisk}
    (ht : t.disk = s'.disk) :
    ∃ t', (records.materialize root aggregators).Ends t w t' ∧ t'.disk = t.disk := by
  cases aggregators with
  | true => exact exists_aggregating_again h hplain ht
  | false => exact exists_bare_again h hplain ht

end OutputRecords

end InteropBindings
