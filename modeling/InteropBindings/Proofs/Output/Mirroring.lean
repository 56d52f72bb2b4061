import InteropBindings.Proofs.Files.Mirroring
import InteropBindings.Proofs.Generation
import InteropBindings.Proofs.Output.FolderAggregators
import InteropBindings.Proofs.Output.PlainPaths
import Mathlib.Data.List.Infix

/-!
# Materializing on two trees

Records whose keys go on from a path apart from a place are materialized alike on twins that differ below the place
(`Mirrors.materialize`). The folders of such records lie apart too, so their entries are the same, in whatever order
they come, and so are their aggregators.
-/

namespace InteropBindings

open InteropBindings.Path Text

/-! ## Paths apart from a place -/

/-- A path whose way does not go below a place, and which leads neither to the place nor into it nor around it. -/
structure Path.IsApart (place here : Place) (p : Path) : Prop where
  clear : p.IsClear place here
  outside : ¬ place <+: p.components.foldl Place.descend here
  around : ¬ p.components.foldl Place.descend here <+: place

instance (place here : Place) : DecidablePred (Path.IsApart place here) := fun p =>
  decidable_of_iff ((∀ front ∈ p.components.inits, ¬ (place <+: front.foldl Place.descend here ∧
      front.foldl Place.descend here ≠ place)) ∧ ¬ place <+: p.components.foldl Place.descend here ∧
      ¬ p.components.foldl Place.descend here <+: place)
    ⟨fun ⟨hclear, hout, haround⟩ => ⟨fun front hfront => hclear front ((List.mem_inits _ _).mpr hfront), hout, haround⟩,
      fun h => ⟨fun front hfront => h.clear front ((List.mem_inits _ _).mp hfront), h.outside, h.around⟩⟩

namespace Path.IsApart

variable {place here : Place} {base p : Path} {names : List RawText}

/-- Names further down from a place apart lead to places that are neither in the other place nor around it. -/
theorem not_comparable (h : base.IsApart place here) (names : List RawText) :
    ¬ place <+: base.components.foldl Place.descend here ++ names ∧
      ¬ base.components.foldl Place.descend here ++ names <+: place := by
  constructor
  · intro hin
    rcases List.prefix_or_prefix_of_prefix hin (List.prefix_append _ names) with hin | hin
    · exact h.outside hin
    · exact h.around hin
  · exact fun haround => h.around ((List.prefix_append _ names).trans haround)

/-- **What goes on through names** from a path apart is apart. -/
theorem of_append (h : base.IsApart place here) (hp : p.components = base.components ++ names.map .normal) :
    p.IsApart place here := by
  have hlead : ∀ names : List RawText, (base.components ++ names.map Component.normal).foldl Place.descend here =
      base.components.foldl Place.descend here ++ names := fun names => by
    rw [List.foldl_append, Place.foldl_descend_normal]
  refine ⟨fun front hfront => ?_, ?_, ?_⟩
  · rw [hp] at hfront
    -- The way ends either on that of the path apart or behind it, among the names.
    rcases List.prefix_or_prefix_of_prefix hfront (List.prefix_append _ _) with hbefore | ⟨rest, rfl⟩
    · exact h.clear front hbefore
    · rw [List.prefix_append_right_inj] at hfront
      obtain ⟨taken, _, rfl⟩ := List.prefix_map_iff.mp hfront
      rw [hlead]
      exact fun hbelow => (h.not_comparable _).1 hbelow.1
  · rw [hp, hlead]
    exact (h.not_comparable names).1
  · rw [hp, hlead]
    exact (h.not_comparable names).2

theorem join (h : base.IsApart place here) {name : RawText} (hname : IsName name) :
    (base.join name).IsApart place here := by
  have hcomponents : (base.join name).components = base.components ++ [name].map .normal := hname.components_join base
  exact h.of_append hcomponents

end Path.IsApart

/-! ## Aggregators -/

/-- The binding files of a folder do not depend on the order of its entries. -/
theorem dartFiles_eq_of_perm {excluded : List String} {entries entries' : List (RawText × Kind)}
    (h : entries'.Perm entries) :
    dartFiles excluded entries' = dartFiles excluded entries := by
  refine List.Perm.eq_of_pairwise (fun _ _ _ _ => le_antisymm) (sorted_dartFiles ..) (sorted_dartFiles ..) ?_
  unfold dartFiles
  exact (List.mergeSort_perm _ _).trans ((h.filterMap _).trans (List.mergeSort_perm _ _).symm)

namespace Mirrors

variable {place : Place} {d₀ t₀ : Disk} {root folder : Path}

theorem isName_aggregatorName {name : String} (h : folderName folder = .ok name) : IsName (aggregatorName name) := by
  obtain ⟨hnamed, rfl⟩ := folderName_eq_ok_iff.mp h
  exact isName_aggregatorFile hnamed

theorem writeFolderAggregator (h : folder.IsApart place d₀.workingDirectory) :
    Mirrors (TwinStates place d₀ t₀) (writeFolderAggregator folder : Job (StateM LoggedDisk) Path).run := by
  unfold InteropBindings.writeFolderAggregator
  refine bind_result fun name hname => bind_list h.clear h.outside (fun entries entries' hperm => ?_) fun entries => ?_
  · rw [exportedFiles, dartFiles_eq_of_perm hperm, exportedFiles]
  · exact bind_job (writeFile (h.join (isName_aggregatorName hname)).clear) fun _ => pure _

theorem aggregate {files : List Path} (h : folder.IsApart place d₀.workingDirectory) :
    Mirrors (TwinStates place d₀ t₀) (OutputRecords.aggregate files folder : Job (StateM LoggedDisk) Path).run := by
  refine bind_job (writeFolderAggregator h) fun path => ?_
  split
  · exact bind_job (tellAll _) fun _ => pure _
  · exact pure _

theorem writeRootExport (h : root.IsApart place d₀.workingDirectory) :
    Mirrors (TwinStates place d₀ t₀) (writeRootExport root folder : Job (StateM LoggedDisk) Path).run := by
  unfold InteropBindings.writeRootExport
  refine bind_result fun name hname => ?_
  dsimp only
  split
  · exact pure _
  · exact bind_job (writeFile (h.join (isName_aggregatorName hname)).clear) fun _ => pure _

/-! ## Records -/

variable {records : OutputRecords} {base : Path}

theorem writeRecord {e : String × OutputRecord} (h : (⟨e.1⟩ : Path).IsClear place d₀.workingDirectory) :
    Mirrors (TwinStates place d₀ t₀) (OutputRecords.writeRecord e : Job (StateM LoggedDisk) Unit).run := by
  unfold OutputRecords.writeRecord
  split
  · exact tellAll _
  · exact writeFile h

/-- The folders of records below a path apart are apart. -/
theorem isApart_of_mem_folders (hbase : base.IsApart place d₀.workingDirectory)
    (hkeys : ∀ k ∈ records.keys, LiesBelow base ⟨k⟩ ∧ base.same ⟨k⟩ = false) (hfolder : folder ∈ records.folders) :
    folder.IsApart place d₀.workingDirectory := by
  obtain ⟨p, hp, hparent⟩ := OutputRecords.exists_of_mem_folders hfolder
  rw [← OutputRecords.map_fst_writes] at hp
  obtain ⟨v, hv, rfl⟩ := List.mem_map.mp hp
  obtain ⟨e, he, _, rfl⟩ := OutputRecords.mem_writes.mp hv
  obtain ⟨⟨names, hnames⟩, hne⟩ := hkeys e.1 (List.mem_map_of_mem he)
  have hnonempty : names ≠ [] := by
    rintro rfl
    simp [same, hnames] at hne
  have hcomponents : folder.components = base.components ++ names.dropLast.map .normal := by
    rw [components_of_parent hparent, hnames, List.dropLast_append_of_ne_nil (by simpa using hnonempty),
      List.map_dropLast]
  exact hbase.of_append hcomponents

/-- **Materializing** records below a path apart, with exports at an output root apart. -/
theorem materialize (hbase : base.IsApart place d₀.workingDirectory) (hroot : root.IsApart place d₀.workingDirectory)
    (hkeys : ∀ k ∈ records.keys, LiesBelow base ⟨k⟩ ∧ base.same ⟨k⟩ = false) (aggregators : Bool) :
    Mirrors (TwinStates place d₀ t₀)
      (records.materialize root aggregators : Job (StateM LoggedDisk) Materialized).run := by
  have hrecords : ∀ e ∈ records.entries, Mirrors (TwinStates place d₀ t₀)
      (OutputRecords.writeRecord e : Job (StateM LoggedDisk) Unit).run := fun e he => by
    obtain ⟨⟨names, hnames⟩, _⟩ := hkeys e.1 (List.mem_map_of_mem he)
    exact writeRecord (hbase.of_append hnames).clear
  refine bind_job (forM hrecords) fun _ => bind_job (tellAll _) fun _ => ?_
  split
  · refine bind_job (mapM fun folder hfolder => aggregate (isApart_of_mem_folders hbase hkeys hfolder)) fun _ => ?_
    refine bind_job (mapM fun folder _ => writeRootExport hroot) fun _ => ?_
    exact bind_job (tellAll _) fun _ => pure _
  · exact pure _

/-- **Going on** with what is generated: the records are materialized, or nothing is written. -/
theorem finish {settings : Settings} {g : Generated} (hbase : base.IsApart place d₀.workingDirectory)
    (hroot : root.IsApart place d₀.workingDirectory)
    (hkeys : ∀ k ∈ g.records.keys, LiesBelow base ⟨k⟩ ∧ base.same ⟨k⟩ = false) (count : Nat) :
    Mirrors (TwinStates place d₀ t₀) (settings.finish root count g).run := by
  unfold Settings.finish
  dsimp only
  split
  · exact bind_job (tellAll _) fun _ => pure _
  · exact bind_job (materialize hbase hroot hkeys _) fun _ => pure _

end Mirrors

end InteropBindings
