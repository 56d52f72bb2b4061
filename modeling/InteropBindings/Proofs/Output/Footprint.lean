import InteropBindings.Proofs.Disk.Footprint
import InteropBindings.Proofs.Output.Materializing
import Mathlib.Data.List.Pairwise

/-!
# What materializing leaves alone

Writing a file keeps to the way of its path (`KeepingTo.writeFile`). So without aggregators the tree holds the files of
the records besides what it held before, and nothing else is different; with aggregators only these are different again
(`OutputRecords.materialize_holdsOnly`).
-/

namespace InteropBindings

open Disk (KeepsTo HoldsOnly WritesAll Write)
open InteropBindings.Path

variable {s s' : LoggedDisk}

/-! ## Jobs -/

/-- In a plain tree nothing changes but along some paths. -/
def KeepingTo (written : Path → Prop) (s s' : LoggedDisk) : Prop :=
  s.disk.IsPlain → KeepsTo written s.disk s'.disk ∧ s'.disk.IsPlain

namespace KeepingTo

variable {written : Path → Prop} {p : Path} {text : String}

instance : Std.Refl (KeepingTo written) := ⟨fun s h => ⟨.refl written s.disk, h⟩⟩

instance : Trans (KeepingTo written) (KeepingTo written) (KeepingTo written) :=
  ⟨fun h h' hplain =>
    have ⟨hkeeps, hplain'⟩ := h hplain
    have ⟨hkeeps', hplain''⟩ := h' hplain'
    ⟨hkeeps.trans hkeeps', hplain''⟩⟩

theorem of_disk_eq (h : s'.disk = s.disk) : KeepingTo written s s' := by
  intro hplain
  rw [h]
  exact ⟨.refl written s.disk, hplain⟩

theorem change {operation : Disk → Except Refusal Disk}
    (h : ∀ d d', d.IsPlain → operation d = .ok d' → KeepsTo written d d' ∧ d'.IsPlain) :
    Respects (KeepingTo written) (LoggedDisk.change operation) := by
  intro s hplain
  rw [run_change]
  cases hop : operation s.disk with
  | error reason => exact ⟨.refl written s.disk, hplain⟩
  | ok d => exact h s.disk d hplain hop

/-- **Writing a file** keeps to the way of its path. -/
theorem writeFile (hp : written p) :
    Respects (KeepingTo written) (writeFile p text : Job (StateM LoggedDisk) Unit).run := by
  refine .writeFile (fun around q hparent hq => change fun d d' hplain hmake => ?_)
    (change fun d d' hplain hwrite => ?_)
  · obtain ⟨rest, hrest⟩ := prefix_of_mem_ancestorsTo hq
    obtain ⟨c, hc⟩ := exists_of_parent hparent
    rw [← hrest, List.append_assoc] at hc
    exact ⟨.makeDirectory hplain.linkFree hmake hp hc (by simp), hplain.of_makeDirectory hmake⟩
  · exact ⟨.write hplain.linkFree hwrite hp, hplain.of_write hwrite⟩

end KeepingTo

namespace OutputRecords

variable {records : OutputRecords} {root : Path} {w : Materialized}

/-- Writing the records keeps to their paths. -/
theorem keepingTo_records {u : Unit} (h : Job.Ends (records.entries.forM writeRecord) s u s') :
    KeepingTo (· ∈ records.writes.map Prod.fst) s s' := by
  refine Respects.of_ends_forM (fun e he t t' hwrite => ?_) h
  rw [ends_writeRecord_iff] at hwrite
  split at hwrite
  · exact .of_disk_eq (hwrite ▸ rfl)
  · next hempty =>
    have hmem : (⟨e.1⟩ : Path) ∈ records.writes.map Prod.fst :=
      List.mem_map_of_mem (f := Prod.fst) (mem_writes.mpr ⟨e, he, by simpa using hempty, rfl⟩)
    exact (KeepingTo.writeFile hmem).of_ends hwrite

theorem keepingTo_aggregate {files : List Path} {folder path : Path} {written : Path → Prop}
    (hp : written folder.aggregator) (h : (aggregate files folder).Ends s path s') : KeepingTo written s s' := by
  obtain ⟨s₁, hwrite, rfl⟩ := ends_aggregate_iff.mp h
  obtain ⟨rfl, _, _, _, hfile⟩ := ends_writeFolderAggregator_iff.mp hwrite
  have hkeeps : KeepingTo written s s₁ := (KeepingTo.writeFile hp).of_ends hfile
  exact hkeeps

/-- **Materializing with aggregators** writes the records, and from then on it keeps to the paths of the aggregators. -/
theorem exists_records_of_materialize (h : (records.materialize root true).Ends s w s') :
    ∃ s₁, Job.Ends (records.entries.forM writeRecord) s () s₁ ∧ KeepingTo (records.IsAggregatorPath root) s₁ s' := by
  obtain ⟨s₁, _, s₂, _, s₃, hrecords, hfolders, hroot, -, rfl⟩ := ends_materialize_iff.mp h
  have hfirst : KeepingTo (records.IsAggregatorPath root) _ s₂ :=
    Respects.of_ends_mapM (fun folder hfolder _ _ _ => keepingTo_aggregate ⟨folder, hfolder, .inl rfl⟩) hfolders
  have hlater : KeepingTo (records.IsAggregatorPath root) s₂ s₃ := by
    refine Respects.of_ends_mapM (fun folder hfolder t b t' hends => ?_) hroot
    obtain ⟨rfl, _, _, hfile⟩ := ends_writeRootExport_iff.mp hends
    exact (KeepingTo.writeFile ⟨folder, hfolder, .inr rfl⟩).of_ends hfile
  have hwhole : KeepingTo (records.IsAggregatorPath root) s₁ s₃ := fun hplain =>
    have ⟨hkeeps, hplain'⟩ := hfirst hplain
    have ⟨hkeeps', hplain''⟩ := hlater hplain'
    ⟨hkeeps.trans hkeeps', hplain''⟩
  exact ⟨s₁, hrecords, hwhole⟩

/-! ## Keys below the output root -/

/-- The keys of some records are paths strictly below the output root, no two of them the same. -/
structure LieApart (records : OutputRecords) (root : Path) : Prop where
  below : ∀ k ∈ records.keys, LiesBelow root ⟨k⟩ ∧ root.same ⟨k⟩ = false
  distinct : records.keys.Pairwise fun k k' : String => same ⟨k⟩ ⟨k'⟩ = false

instance : Decidable (records.LieApart root) :=
  decidable_of_iff ((∀ k ∈ records.keys, LiesBelow root ⟨k⟩ ∧ root.same ⟨k⟩ = false) ∧
    records.keys.Pairwise fun k k' : String => same ⟨k⟩ ⟨k'⟩ = false) ⟨fun h => ⟨h.1, h.2⟩, fun h => ⟨h.1, h.2⟩⟩

namespace LieApart

theorem below_writes (h : records.LieApart root) {v : Write} (hv : v ∈ records.writes) :
    LiesBelow root v.1 ∧ root.same v.1 = false := by
  obtain ⟨e, he, _, rfl⟩ := mem_writes.mp hv
  exact h.below _ (List.mem_map_of_mem he)

theorem pairwise_writes (h : records.LieApart root) : records.writes.Pairwise fun v v' => same v.1 v'.1 = false := by
  have hentries := List.pairwise_map.mp h.distinct
  exact List.pairwise_map.mpr (hentries.filter _)

/-- Below one path, different paths lead to different places. -/
theorem placeOf_ne (h : records.LieApart root) (d : Disk) :
    records.writes.Pairwise fun v v' => d.placeOf v.1 ≠ d.placeOf v'.1 := by
  refine h.pairwise_writes.imp_of_mem fun {v v'} hv hv' hne hplace => ?_
  obtain ⟨⟨names, hnames⟩, _⟩ := h.below_writes hv
  obtain ⟨⟨names', hnames'⟩, _⟩ := h.below_writes hv'
  have hsame : v.1.components = v'.1.components := by
    rw [Disk.placeOf, Disk.placeOf, hnames, hnames', List.foldl_append, List.foldl_append, Place.foldl_descend_normal,
      Place.foldl_descend_normal, List.append_cancel_left_eq] at hplace
    rw [hnames, hnames', hplace]
  rw [same, beq_eq_false_iff_ne] at hne
  exact hne hsame

/-- **The files of records** that lie apart are all that writing them changes. -/
theorem holdsOnly (h : records.LieApart root) {u : Unit} (hplain : s.disk.IsPlain)
    (hrecords : Job.Ends (records.entries.forM writeRecord) s u s') :
    HoldsOnly records.writes s.disk s'.disk ∧ s'.disk.IsPlain := by
  obtain ⟨hwrites, _⟩ := writesAll_of_forM_writeRecord hrecords
  obtain ⟨hkeeps, hplain'⟩ := keepingTo_records hrecords hplain
  exact ⟨hwrites.holdsOnly hkeeps hplain.linkFree hplain' (h.placeOf_ne s.disk), hplain'⟩

/-- The files are the paths that are written. -/
theorem mem_files_iff (h : records.LieApart root) {p : Path} : p ∈ records.files ↔ p ∈ records.writtenPaths := by
  refine ⟨Sorted.mem_of_mem_ofList, fun hp => ?_⟩
  obtain ⟨q, hq, hcomponents⟩ := exists_mem_pathSet hp
  have hdistinct : records.writtenPaths.Pairwise fun p q => p.components ≠ q.components := by
    rw [← map_fst_writes]
    exact List.pairwise_map.mpr (h.pairwise_writes.imp fun hne => by simpa [same] using hne)
  have : Std.Symm fun p q : Path => p.components ≠ q.components := ⟨fun _ _ => Ne.symm⟩
  by_contra hnot
  have hne : p ≠ q := fun he => hnot (he ▸ hq)
  exact hdistinct.forall hp (Sorted.mem_of_mem_ofList hq) hne hcomponents

/-- A path that is written has a parent, and one of the folders is the same path as that. -/
theorem exists_mem_folders (h : records.LieApart root) {p : Path} (hp : p ∈ records.writtenPaths) :
    ∃ folder ∈ records.folders, ∃ q, p.parent = some q ∧ q.same folder = true := by
  rw [← map_fst_writes] at hp
  obtain ⟨v, hv, rfl⟩ := List.mem_map.mp hp
  obtain ⟨⟨names, hnames⟩, hne⟩ := h.below_writes hv
  obtain ⟨front, last, rfl⟩ : ∃ front last, names = front ++ [last] := by
    refine (List.eq_nil_or_concat' names).resolve_left ?_
    rintro rfl
    rw [List.map_nil, List.append_nil] at hnames
    simp [same, hnames] at hne
  rw [List.map_append, ← List.append_assoc, List.map_singleton] at hnames
  obtain ⟨q, hq⟩ := exists_parent hnames
  have hmem : q ∈ records.writtenPaths.filterMap parent :=
    List.mem_filterMap.mpr ⟨v.1, by rw [← map_fst_writes]; exact List.mem_map_of_mem hv, hq⟩
  obtain ⟨folder, hfolder, hcomponents⟩ := exists_mem_pathSet hmem
  exact ⟨folder, hfolder, q, hq, by rw [same, hcomponents, beq_self_eq_true]⟩

/-- What lies around an aggregator lies around a file of a record. -/
theorem isAround_of_aggregator (h : records.LieApart root) (hnamed : ∀ folder ∈ records.folders, folder.fileName.isSome)
    {d : Disk} {p : Path} {place : Place} (hp : records.IsAggregatorPath root p) (haround : d.IsAround p place) :
    ∃ v ∈ records.writes, d.IsAround v.1 place := by
  obtain ⟨folder, hfolder, hpath⟩ := hp
  obtain ⟨q, hq, hparent⟩ := exists_of_mem_folders hfolder
  rw [← map_fst_writes] at hq
  obtain ⟨v, hv, rfl⟩ := List.mem_map.mp hq
  obtain ⟨c, hc⟩ := exists_of_parent hparent
  have hname := isName_aggregatorFile (hnamed folder hfolder)
  refine ⟨v, hv, ?_⟩
  rcases hpath with rfl | rfl
  · exact haround.of_prefix (hname.components_join folder) ⟨[c], hc.symm⟩ (by simp [hc])
  · obtain ⟨⟨names, hnames⟩, hne⟩ := h.below_writes hv
    refine haround.of_prefix (hname.components_join root) ⟨_, hnames.symm⟩ ?_
    simpa [same] using hne

end LieApart

/-! ## Materializing -/

/-- **Materializing touches only what it reports.** Where the keys of the records lie apart below the output root,
materializing without aggregators leaves the files of the records, directories on their way, and nothing else that is
different. Its files are the paths of the records in order, its folders the parents of these. With aggregators there are
the same files and folders, and one aggregator in each folder and one at the output root for each, in order; the tree is
different at their places only. -/
theorem materialize_holdsOnly (hapart : records.LieApart root) (hplain : s.disk.IsPlain)
    (h : (records.materialize root false).Ends s w s') :
    HoldsOnly records.writes s.disk s'.disk ∧ w.aggregators = [] ∧
    (Sorted.IsSorted Path.order w.files ∧ ∀ p, p ∈ w.files ↔ p ∈ records.writtenPaths) ∧
    (Sorted.IsSorted Path.order w.folders ∧ (∀ folder ∈ w.folders, ∃ p ∈ records.writtenPaths, p.parent = some folder) ∧
      ∀ p ∈ records.writtenPaths, ∃ folder ∈ w.folders, ∃ q, p.parent = some q ∧ q.same folder = true) ∧
    ∀ t w' t', t.disk = s.disk → (records.materialize root true).Ends t w' t' →
      w'.files = w.files ∧ w'.folders = w.folders ∧ (∀ folder ∈ w.folders, folder.fileName.isSome) ∧
      w'.aggregators = w.folders.map Path.aggregator ++ w.folders.map (exportFile root) ∧
      ∀ place, (∀ p ∈ w'.aggregators, s.disk.placeOf p ≠ place) → t'.disk.entryAt place = s'.disk.entryAt place := by
  obtain ⟨s₁, hrecords, rfl, rfl⟩ := ends_materialize_bare_iff.mp h
  obtain ⟨honly, _⟩ := hapart.holdsOnly hplain hrecords
  refine ⟨honly, rfl, ⟨Sorted.isSorted_ofList _, fun p => hapart.mem_files_iff⟩,
    ⟨Sorted.isSorted_ofList _, fun folder => exists_of_mem_folders, fun p => hapart.exists_mem_folders⟩, ?_⟩
  intro t w' t' hdisk hall
  have hwritten := written_of_materialize hall
  refine ⟨hwritten.files, hwritten.folders, hwritten.named, hwritten.aggregators, fun place hplace => ?_⟩
  obtain ⟨t₁, hrecords', hkeeps⟩ := exists_records_of_materialize hall
  obtain ⟨honly', hplain₁⟩ := hapart.holdsOnly (hdisk ▸ hplain) hrecords'
  rw [hdisk] at honly'
  have hsame : t₁.disk.entryAt place = s₁.disk.entryAt place := honly'.entryAt_eq honly place
  rcases (hkeeps hplain₁).1.becomes place with hstays | ⟨⟨p, hp, haround⟩, hnone, _⟩ | ⟨p, ⟨folder, hfolder, hpath⟩, hp⟩
  · rw [hstays, hsame]
  · -- Directories are there already, since they lie around files of records.
    obtain ⟨v, hv, haround'⟩ := hapart.isAround_of_aggregator hwritten.named hp haround
    rw [Disk.isAround_of_workingDirectory honly'.workingDirectory] at haround'
    rw [(honly'.around v hv place haround').2] at hnone
    cases hnone
  · rw [Disk.placeOf, honly'.workingDirectory] at hp
    refine absurd hp (hplace p ?_)
    rw [hwritten.aggregators, List.mem_append, List.mem_map, List.mem_map]
    exact hpath.imp (fun he => ⟨folder, hfolder, he.symm⟩) fun he => ⟨folder, hfolder, he.symm⟩

/-! ### One record in a tree that holds something else -/

/-- The records of a file with one class. -/
def sawRecords : OutputRecords :=
  let files : List DeclarationFile := [⟨⟨"in/tool.d.ts"⟩, [.declaration (.classDecl ⟨"Saw", []⟩)]⟩]
  route files (SymbolTable.build files {}) ⟨⟨"in"⟩, ⟨"out"⟩⟩

/-- A tree with an output root that holds a file of another kind. -/
def sawTree : Disk where
  entries.entries := [(["out"], .directory), (["out", "readme"], .file (.bytes [255]))]

/-- What is written, with some aggregators. -/
def sawWritten (aggregators : List Path) : Materialized := ⟨[⟨"out/tool/saw.dart"⟩], [⟨"out/tool"⟩], aggregators⟩

/-- The tree after that, with the same aggregators. -/
def sawAfter (aggregators : List (Place × Entry)) : Disk :=
  let file := Entry.file (.text (classStub ⟨"Saw"⟩ "Saw"))
  aggregators.foldl (fun d e => d.put e.1 e.2)
    ((sawTree.put ["out", "tool"] .directory).put ["out", "tool", "saw.dart"] file)

theorem ends_sawRecords_bare : (sawRecords.materialize ⟨"out"⟩ false).Ends ⟨sawTree, []⟩ (sawWritten [])
    ⟨sawAfter [], [.bindingsWritten 1]⟩ := by
  decide +kernel

/-- The aggregators. -/
def sawAggregators : List (Place × Entry) :=
  [(["out", "tool", "tool.dart"], .file (.text "// Library file for tool\nexport './saw.dart';\n")),
    (["out", "tool.dart"], .file (.text "export './tool/tool.dart';\n"))]

/-- Materializing with aggregators ends well. -/
theorem ends_sawRecords : (sawRecords.materialize ⟨"out"⟩ true).Ends ⟨sawTree, []⟩
    (sawWritten [⟨"out/tool/tool.dart"⟩, ⟨"out/tool.dart"⟩])
    ⟨sawAfter sawAggregators, [.bindingsWritten 1, .aggregatorsWritten 2]⟩ := by
  decide +kernel

/-- Only the folder of the record and its file are new, and with aggregators these besides. -/
theorem materialize_holdsOnly_saw :
    sawRecords.LieApart ⟨"out"⟩ ∧ sawTree.IsPlain ∧
      (sawRecords.materialize ⟨"out"⟩ false).Ends ⟨sawTree, []⟩ (sawWritten []) ⟨sawAfter [], [.bindingsWritten 1]⟩ ∧
      HoldsOnly sawRecords.writes sawTree (sawAfter []) ∧
      ∀ place, (["out", "tool", "tool.dart"] : Place) ≠ place ∧ (["out", "tool.dart"] : Place) ≠ place →
        (sawAfter sawAggregators).entryAt place = (sawAfter []).entryAt place := by
  have hapart : sawRecords.LieApart ⟨"out"⟩ := by decide +kernel
  have hplain : sawTree.IsPlain := ⟨by decide, Disk.linkFree_of_entries (by decide)⟩
  obtain ⟨honly, _, _, _, hagree⟩ := materialize_holdsOnly hapart hplain ends_sawRecords_bare
  obtain ⟨_, _, _, _, hsame⟩ := hagree _ _ _ rfl ends_sawRecords
  refine ⟨hapart, hplain, ends_sawRecords_bare, honly, fun place ⟨hinside, hroot⟩ => hsame place fun p hp => ?_⟩
  have hplaces : sawTree.placeOf ⟨"out/tool/tool.dart"⟩ = (["out", "tool", "tool.dart"] : Place) ∧
      sawTree.placeOf ⟨"out/tool.dart"⟩ = (["out", "tool.dart"] : Place) := by decide +kernel
  rcases List.mem_pair.mp hp with rfl | rfl
  · rwa [hplaces.1]
  · rwa [hplaces.2]

end OutputRecords

end InteropBindings
