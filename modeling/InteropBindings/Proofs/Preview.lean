import InteropBindings.Proofs.Generation

/-!
# Runs that only show what they would do

A run generates everything before it writes the first file. Up to there it is the same run whether it is to write or
not, and the tree stays as it is (`Settings.dryRun_previews`). What goes wrong there is told apart from what goes wrong
in writing by the fault alone.
-/

namespace InteropBindings

/-! ## Faults of writing -/

/-- Whether a fault is one of writing: the tree has refused something, or a path has no place in the output. -/
def Fault.IsOfWriting : Fault → Prop
  | .refused _ | .invalidPath _ => True
  | _ => False

instance : DecidablePred Fault.IsOfWriting := fun fault => by
  unfold Fault.IsOfWriting
  split <;> infer_instance

namespace Job

theorem failsOnly_writeFile (path : Path) (text : String) : FailsOnly Fault.IsOfWriting (writeFile path text) := by
  have hwrite : FailsOnly Fault.IsOfWriting (allowed .refused (FileAccess.write path text)) :=
    .allowed (fun _ => trivial) _
  unfold writeFile
  split
  · exact .bind (.allowed (fun _ => trivial) _) fun _ => hwrite
  · exact hwrite

theorem failsOnly_folderName (folder : Path) : FailsOnly Fault.IsOfWriting (ofResult (folderName folder)) := by
  refine .ofResult fun fault hfault => ?_
  unfold folderName at hfault
  split at hfault
  · cases hfault
  · cases hfault
    trivial

/-- **Materializing** fails with faults of writing only. -/
theorem failsOnly_materialize (records : OutputRecords) (root : Path) (aggregators : Bool) :
    FailsOnly Fault.IsOfWriting (records.materialize root aggregators) := by
  have hrecord : ∀ entry, FailsOnly Fault.IsOfWriting (OutputRecords.writeRecord entry) := by
    intro entry
    unfold OutputRecords.writeRecord
    split
    · exact .forM (fun _ => .lift _) _
    · exact failsOnly_writeFile _ _
  have haggregate : ∀ folder, FailsOnly Fault.IsOfWriting (OutputRecords.aggregate records.files folder) := by
    intro folder
    have hwhole : FailsOnly Fault.IsOfWriting (writeFolderAggregator folder) :=
      .bind (failsOnly_folderName folder) fun _ => .bind (.allowed (fun _ => trivial) _) fun _ =>
        .bind (failsOnly_writeFile _ _) fun _ => .pure _
    refine .bind hwhole fun path => ?_
    split
    · exact .bind (.forM (fun _ => .lift _) _) fun _ => .pure _
    · exact .pure _
  have hexport : ∀ folder, FailsOnly Fault.IsOfWriting (writeRootExport root folder) := by
    intro folder
    refine .bind (failsOnly_folderName folder) fun name => ?_
    dsimp only
    split
    · exact .ofResult fun fault hfault => by
        cases hfault
        trivial
    · exact .bind (failsOnly_writeFile _ _) fun _ => .pure _
  refine .bind (.forM hrecord _) fun _ => .bind (.forM (fun _ => .lift _) _) fun _ => ?_
  split
  · exact .bind (.mapM haggregate _) fun _ => .bind (.mapM hexport _) fun _ =>
      .bind (.forM (fun _ => .lift _) _) fun _ => .pure _
  · exact .pure _

end Job

/-! ## Runs of both kinds -/

namespace Settings

variable {settings : Settings} {parser : Parser} {s s' : LoggedDisk}

/-- The same settings, with writing or without. -/
def withDryRun (settings : Settings) (dryRun : Bool) : Settings := { settings with dryRun := dryRun }

/-- Whether a run is to write makes no difference for what it generates. -/
theorem prepare_withDryRun (settings : Settings) (dryRun : Bool) :
    (settings.withDryRun dryRun).prepare parser = settings.prepare parser := rfl

/-- **A run that does not write** leaves the tree as it is, however it ends. -/
theorem treeStays_run (hdry : settings.dryRun = true) :
    Respects TreeStays (settings.run parser : Job (StateM LoggedDisk) Outcome).run := by
  rw [run_eq]
  refine .bind_job (settings.treeStays_prepare parser) fun (output, count, generated) => ?_
  change Respects TreeStays (settings.finish output count generated).run
  unfold finish
  rw [hdry, if_pos rfl]
  exact .bind_job (TreeStays.tellAll _) fun _ => .result _

/-- Where something is generated, a run that does not write ends well. -/
theorem exists_dryRun_ends {output : Path} {count : Nat} {g : Generated}
    (h : (settings.prepare parser).Ends s (output, count, g) s') :
    ∃ t, ((settings.withDryRun true).run parser).Ends s ⟨output, count, g.symbols.size, g.records.countWritten,
      [], [], true⟩ t := by
  let told : LoggedDisk := { s' with events := s'.events ++ [.nothingWritten g.records.countWritten] }
  have htold : Job.Ends (tellAll [.nothingWritten g.records.countWritten]) s' () told := Job.ends_tellAll.mpr rfl
  rw [run_eq, prepare_withDryRun]
  exact ⟨told, Job.ends_bind.mpr ⟨_, s', h, Job.ends_bind.mpr ⟨(), told, htold, Job.ends_pure.mpr ⟨rfl, rfl⟩⟩⟩⟩

/-- **A run fails before it writes, or in writing.** In the first case the tree stays as it is; in the second one the
fault is one of writing, and the files are written to the tree that was there at first. -/
theorem fails_run_cases {fault : Fault} (h : (settings.run parser).Fails s fault s') :
    ((settings.prepare parser).Fails s fault s' ∧ s'.disk = s.disk) ∨
      (settings.dryRun = false ∧ fault.IsOfWriting ∧ ∃ output count g s₁,
        (settings.prepare parser).Ends s (output, count, g) s₁ ∧
        s₁.disk = s.disk ∧ (g.records.materialize output settings.aggregators).Fails s₁ fault s') := by
  have hbind := h
  rw [run_eq] at hbind
  have hstays := settings.treeStays_prepare parser s
  cases hprepare : (settings.prepare parser).run.run s with
  | mk result s₁ =>
    rw [hprepare] at hstays
    cases result with
    | error fault' =>
      have hfails : (settings.prepare parser).Fails s fault' s₁ := hprepare
      obtain ⟨hfault, rfl⟩ := (hfails.bind _).unique hbind
      exact .inl ⟨hfault ▸ hfails, hstays⟩
    | ok answer =>
      obtain ⟨output, count, g⟩ := answer
      have hends : (settings.prepare parser).Ends s (output, count, g) s₁ := hprepare
      have hfinish : (settings.finish output count g).Fails s₁ fault s' := hends.of_bind_fails hbind
      unfold finish at hfinish
      cases hdry : settings.dryRun with
      | true =>
        rw [hdry, if_pos rfl] at hfinish
        cases ((Job.ends_tellAll (u := ())).mpr rfl).of_bind_fails hfinish
      | false =>
        rw [hdry] at hfinish
        have hmaterialize := hfinish.of_bind_pure
        exact .inr ⟨rfl, Job.failsOnly_materialize _ _ _ _ _ _ hmaterialize, output, count, g, s₁, hends,
          hstays, hmaterialize⟩

/-- **A run without writing shows what a run with writing does.** It changes nothing, and where the run with writing
ends well, it ends well too, with the same numbers and without files. A run of either kind that fails has left the tree
as it is, unless everything was generated and writing it failed; the fault tells. -/
theorem dryRun_previews (settings : Settings) (parser : Parser) (s : LoggedDisk) :
    (((settings.withDryRun true).run parser : Job (StateM LoggedDisk) Outcome).run.run s).2.disk = s.disk ∧
    (∀ o s', ((settings.withDryRun false).run parser).Ends s o s' →
      ∃ t, ((settings.withDryRun true).run parser).Ends s { o with files := [], aggregators := [], dryRun := true } t) ∧
    ∀ fault s', (settings.run parser).Fails s fault s' →
      ((settings.prepare parser).Fails s fault s' ∨ ¬ fault.IsOfWriting → s'.disk = s.disk) ∧
      (¬ (settings.prepare parser).Fails s fault s' → settings.dryRun = false ∧ fault.IsOfWriting ∧
        ∃ output count g s₁, (settings.prepare parser).Ends s (output, count, g) s₁ ∧ s₁.disk = s.disk ∧
          (g.records.materialize output settings.aggregators).Fails s₁ fault s') := by
  refine ⟨treeStays_run rfl s, fun o s' h => ?_, fun fault s' h => ?_⟩
  · obtain ⟨output, count, g, s₁, w, hprepare, _, rfl⟩ := exists_prepare_of_run h rfl
    rw [prepare_withDryRun] at hprepare
    exact exists_dryRun_ends hprepare
  · rcases fails_run_cases h with ⟨hprepare, hstays⟩ | ⟨hdry, hwriting, hrest⟩
    · exact ⟨fun _ => hstays, fun hnot => absurd hprepare hnot⟩
    · refine ⟨fun hearly => ?_, fun _ => ⟨hdry, hwriting, hrest⟩⟩
      obtain ⟨output, count, g, s₁, hends, _⟩ := hrest
      rcases hearly with hprepare | hnot
      · cases hends.symm.trans hprepare
      · exact absurd hwriting hnot

end Settings

end InteropBindings
