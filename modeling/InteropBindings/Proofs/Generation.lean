import InteropBindings.Generation
import InteropBindings.Proofs.Files.Jobs

/-!
# What a run does

A run generates everything before it writes something (`Settings.run_eq`), and up to there the tree stays as it is. So a
run that ends well and writes something is the materializing of the records of the loaded files, on the tree that was
there at first (`Settings.exists_of_run`, `Settings.exists_of_run_of_loads`). The other way round, a run that loads
files goes on with what is generated from them (`Settings.exists_run_eq_finish`) and fails only in writing that
(`Settings.exists_of_fails_run`).
-/

namespace InteropBindings

variable {parser : Parser}

/-- The tree stays as it is. -/
def TreeStays (s s' : LoggedDisk) : Prop := s'.disk = s.disk

namespace TreeStays

instance : Std.Refl TreeStays := ⟨fun _ => rfl⟩

instance : Trans TreeStays TreeStays TreeStays := ⟨fun h h' => h'.trans h⟩

theorem tell (event : Event) : Respects TreeStays (FileAccess.tell event : StateM LoggedDisk Unit) := fun _ => rfl

theorem tellAll (events : List Event) : Respects TreeStays (tellAll events : Job (StateM LoggedDisk) Unit).run := by
  induction events with
  | nil => exact .pure _
  | cons event events ih => exact .bind_job (.lift (tell event)) fun _ => ih

end TreeStays

/-! ## Searching -/

namespace Respects

variable {R : LoggedDisk → LoggedDisk → Prop} [Std.Refl R] [Trans R R R]

/-- Searching an entry. -/
theorem searchEntry {deeper : List Ancestor → Path → StateM LoggedDisk (List Found)}
    (hdeeper : ∀ around path, Respects R (deeper around path)) (around : List Ancestor) (path : Path) (kind : Kind) :
    Respects R (searchEntry deeper around path kind) := by
  cases kind with
  | file => exact .pure _
  | other => exact .pure _
  | _ =>
    refine .bind (.ask _) fun status => ?_
    split
    · exact .pure _
    · split
      · exact .pure _
      · split
        · exact .pure _
        · exact hdeeper _ _
      · exact .pure _

theorem searchEntries {deeper : List Ancestor → Path → StateM LoggedDisk (List Found)}
    (hdeeper : ∀ around path, Respects R (deeper around path)) (around : List Ancestor) (dir : Path)
    (entries : List (RawText × Kind)) : Respects R (searchEntries deeper around dir entries) := by
  induction entries with
  | nil => exact .pure _
  | cons e entries ih => exact .bind (searchEntry hdeeper around _ _) fun _ => .bind ih fun _ => .pure _

/-- **Searching a directory** only asks, so it respects any relation. -/
theorem search (depth : Nat) (around : List Ancestor) (dir : Path) :
    Respects R (search depth around dir : StateM LoggedDisk (List Found)) := by
  induction depth generalizing around dir with
  | zero => exact .pure _
  | succ depth ih =>
    refine .bind (.ask _) fun entries => ?_
    cases entries with
    | error reason => exact .pure _
    | ok entries => exact searchEntries ih around dir entries

end Respects

namespace TreeStays

/-- **Finding the declaration files** leaves the tree as it is. -/
theorem discover (dir : Path) (platform : PlatformFilter) :
    Respects TreeStays (discover dir platform : Job (StateM LoggedDisk) (List Path)).run := by
  refine .bind_job (.lift (.ask _)) fun status => ?_
  cases status with
  | error reason => exact .result _
  | ok status =>
    dsimp only
    -- A directory is searched; anything else is a fault, which nothing comes after.
    split
    all_goals try refine .bind_job (.result _) fun _ => ?_
    all_goals
      refine .bind_job (.lift (.ask _)) fun depth => .bind_job (.lift (.search depth _ dir)) fun found => ?_
      refine .bind_job (tellAll _) fun _ => ?_
      split
      · exact .result _
      · exact .result _
      · exact .bind_job (tellAll _) fun _ => .result _

/-! ## Loading -/

theorem load (parser : Parser) (path : Path) :
    Respects TreeStays (DeclarationFile.load parser path : Job (StateM LoggedDisk) DeclarationFile).run :=
  .bind_job (.allowed (.ask _)) fun _ => .result _

/-- **Loading files** leaves the tree as it is. -/
theorem loadAll (parser : Parser) (paths : List Path) :
    Respects TreeStays (loadAll parser paths : StateM LoggedDisk (List DeclarationFile)) := by
  induction paths with
  | nil => exact .pure _
  | cons path paths ih =>
    refine .bind (load parser path) fun result => ?_
    cases result with
    | ok file => exact .bind ih fun _ => .pure _
    | error fault => exact .bind (tell _) fun _ => ih

end TreeStays

/-! ## Generating -/

namespace Settings

/-- The bindings of some files are the records that the declarations are routed to. -/
theorem generate_eq_ok_iff {settings : Settings} {files : List DeclarationFile} {generated : Generated} :
    settings.generate files = .ok generated ↔ ∃ input output, settings.directories = .ok (input, output) ∧
      files ≠ [] ∧ generated = ⟨SymbolTable.build files settings.platform,
        OutputRecords.route files (SymbolTable.build files settings.platform) ⟨input, output⟩⟩ := by
  unfold generate
  cases hdirectories : settings.directories with
  | error fault =>
    constructor
    · intro h
      cases h
    · rintro ⟨_, _, h, _⟩
      cases h
  | ok directories =>
    obtain ⟨input, output⟩ := directories
    cases files with
    | nil =>
      constructor
      · intro h
        cases h
      · rintro ⟨_, _, _, hne, _⟩
        exact absurd rfl hne
    | cons file files =>
      constructor
      · intro h
        cases h
        exact ⟨input, output, rfl, List.cons_ne_nil _ _, rfl⟩
      · rintro ⟨_, _, h, _, rfl⟩
        cases h
        rfl

theorem generate_nil {settings : Settings} {input output : Path}
    (hdirectories : settings.directories = .ok (input, output)) :
    settings.generate [] = .error (.noDeclarationFiles input) := by
  rw [generate, hdirectories]
  rfl

/-- The declaration files that a run loads. -/
def Loads (settings : Settings) (parser : Parser) (input : Path) (s : LoggedDisk) (files : List DeclarationFile) :
    Prop :=
  ∃ paths s₁ s₂, (discover input settings.platform).Ends s paths s₁ ∧
    Job.Ends (ExceptT.lift (loadAll parser paths)) s₁ files s₂

theorem Loads.unique {settings : Settings} {input : Path} {s : LoggedDisk} {files files' : List DeclarationFile}
    (h : settings.Loads parser input s files) (h' : settings.Loads parser input s files') : files = files' := by
  obtain ⟨paths, s₁, s₂, hdiscover, hload⟩ := h
  obtain ⟨paths', t₁, t₂, hdiscover', hload'⟩ := h'
  obtain ⟨rfl, rfl⟩ := hdiscover.unique hdiscover'
  exact (hload.unique hload').1

/-- The records of a run that loads some files. -/
def recordsOf (settings : Settings) (layout : OutputLayout) (files : List DeclarationFile) : OutputRecords :=
  OutputRecords.route files (SymbolTable.build files settings.platform) layout

/-! ## Runs that end well -/

/-- What a run does before it writes: the answer is the output directory, the number of files, and what is generated. -/
def prepare (settings : Settings) (parser : Parser) : Job (StateM LoggedDisk) (Path × Nat × Generated) := do
  let (input, output) ← ofResult settings.directories
  let paths ← discover input settings.platform
  let files ← ExceptT.lift (loadAll parser paths)
  tellAll [.filesParsed files.length paths.length]
  tellAll (settings.generateEvents files)
  let generated ← ofResult (settings.generate files)
  return (output, files.length, generated)

/-- Nothing is written before everything is generated. -/
theorem treeStays_prepare (settings : Settings) (parser : Parser) :
    Respects TreeStays (settings.prepare parser).run := by
  refine .bind_job (.result _) fun (input, output) => ?_
  refine .bind_job (TreeStays.discover input settings.platform) fun paths => ?_
  refine .bind_job (.lift (TreeStays.loadAll parser paths)) fun files => ?_
  refine .bind_job (TreeStays.tellAll _) fun _ => .bind_job (TreeStays.tellAll _) fun _ => ?_
  exact .bind_job (.result _) fun _ => .result _

/-- What a run does with what it has generated from some number of files. -/
def finish (settings : Settings) (output : Path) (count : Nat) (g : Generated) : Job (StateM LoggedDisk) Outcome :=
  let outcome : Outcome := ⟨output, count, g.symbols.size, g.records.countWritten, [], [], settings.dryRun⟩
  if settings.dryRun then do
    tellAll [.nothingWritten outcome.recordCount]
    return outcome
  else do
    let written ← g.records.materialize output settings.aggregators
    return { outcome with files := written.files, aggregators := written.aggregators }

/-- **A run is its two halves**: it generates, and then it goes on with what is generated. -/
theorem run_eq (settings : Settings) (parser : Parser) :
    (settings.run parser : Job (StateM LoggedDisk) Outcome) =
      settings.prepare parser >>= fun (output, count, generated) => settings.finish output count generated := by
  simp only [run, prepare, finish, bind_assoc, pure_bind]

/-- What has been generated comes from the files that are loaded. -/
theorem exists_of_prepare {settings : Settings} {s s' : LoggedDisk} {output : Path} {count : Nat} {g : Generated}
    (h : (settings.prepare parser).Ends s (output, count, g) s') :
    ∃ input files, settings.directories = .ok (input, output) ∧
      settings.Loads parser input s files ∧ count = files.length ∧ settings.generate files = .ok g := by
  unfold prepare at h
  obtain ⟨⟨input, output⟩, s₀, hdirectories, h₁⟩ := Job.ends_bind.mp h
  obtain ⟨hdirectories', rfl⟩ := Job.ends_ofResult.mp hdirectories
  obtain ⟨paths, s₁, hdiscover, h₂⟩ := Job.ends_bind.mp h₁
  obtain ⟨files, s₂, hload, h₃⟩ := Job.ends_bind.mp h₂
  obtain ⟨_, s₃, _, h₄⟩ := Job.ends_bind.mp h₃
  obtain ⟨_, s₄, _, h₅⟩ := Job.ends_bind.mp h₄
  obtain ⟨generated, s₅, hgenerate, hpure⟩ := Job.ends_bind.mp h₅
  obtain ⟨hgenerate', _⟩ := Job.ends_ofResult.mp hgenerate
  obtain ⟨hanswer, _⟩ := Job.ends_pure.mp hpure
  cases hanswer
  exact ⟨input, files, hdirectories', ⟨paths, s₁, s₂, hdiscover, hload⟩, rfl, hgenerate'⟩

/-- A run that writes and ends well has generated something before, and then materialized that. -/
theorem exists_prepare_of_run {settings : Settings} {s s' : LoggedDisk} {o : Outcome}
    (h : (settings.run parser).Ends s o s') (hdry : settings.dryRun = false) :
    ∃ output count g s₁ w, (settings.prepare parser).Ends s (output, count, g) s₁ ∧
      (g.records.materialize output settings.aggregators).Ends s₁ w s' ∧
      o = ⟨output, count, g.symbols.size, g.records.countWritten, w.files, w.aggregators, false⟩ := by
  rw [run_eq] at h
  obtain ⟨⟨output, count, g⟩, s₁, hprepare, hfinish⟩ := Job.ends_bind.mp h
  dsimp only [finish] at hfinish
  rw [hdry] at hfinish
  obtain ⟨w, s₂, hmaterialize, hpure⟩ := Job.ends_bind.mp hfinish
  obtain ⟨rfl, rfl⟩ := Job.ends_pure.mp hpure
  exact ⟨output, count, g, s₁, w, hprepare, hmaterialize, rfl⟩

/-- **What a run has done** that ends well and does not only show what it would do. -/
theorem exists_of_run {settings : Settings} {s s' : LoggedDisk} {o : Outcome} (h : (settings.run parser).Ends s o s')
    (hdry : settings.dryRun = false) :
    ∃ layout files s₁ w, settings.directories = .ok (layout.inputRoot, layout.outputRoot) ∧
      settings.Loads parser layout.inputRoot s files ∧ files ≠ [] ∧ s₁.disk = s.disk ∧
      ((settings.recordsOf layout files).materialize layout.outputRoot settings.aggregators).Ends s₁ w s' ∧
      o = ⟨layout.outputRoot, files.length, (SymbolTable.build files settings.platform).size,
        (settings.recordsOf layout files).countWritten, w.files, w.aggregators, false⟩ := by
  obtain ⟨output, count, g, s₁, w, hprepare, hmaterialize, rfl⟩ := exists_prepare_of_run h hdry
  have hdisk : s₁.disk = s.disk := (settings.treeStays_prepare parser).of_ends hprepare
  obtain ⟨input, files, hdirectories, hloads, rfl, hgenerate⟩ := exists_of_prepare hprepare
  obtain ⟨input', output', hboth, hne, rfl⟩ := generate_eq_ok_iff.mp hgenerate
  obtain ⟨rfl, rfl⟩ := Prod.mk.inj (Except.ok.inj (hdirectories.symm.trans hboth))
  exact ⟨⟨input, output⟩, files, s₁, w, hdirectories, hloads, hne, hdisk, hmaterialize, rfl⟩

/-- What a run has done with the files that it loads. -/
theorem exists_of_run_of_loads {settings : Settings} {s s' : LoggedDisk} {o : Outcome}
    (h : (settings.run parser).Ends s o s')
    (hdry : settings.dryRun = false) {layout : OutputLayout} {files : List DeclarationFile}
    (hdirectories : settings.directories = .ok (layout.inputRoot, layout.outputRoot))
    (hloads : settings.Loads parser layout.inputRoot s files) :
    ∃ s₁ w, s₁.disk = s.disk ∧
      ((settings.recordsOf layout files).materialize layout.outputRoot settings.aggregators).Ends s₁ w s' ∧
      o.recordCount = (settings.recordsOf layout files).countWritten ∧ o.files = w.files ∧
        o.aggregators = w.aggregators := by
  obtain ⟨⟨input, output⟩, files', s₁, w, hdirectories', hloads', _, hdisk, hmaterialize, rfl⟩ := exists_of_run h hdry
  obtain ⟨rfl, rfl⟩ := Prod.mk.inj (Except.ok.inj (hdirectories'.symm.trans hdirectories))
  obtain rfl := hloads'.unique hloads
  exact ⟨s₁, w, hdisk, hmaterialize, rfl, rfl, rfl⟩

/-! ## Runs that load files -/

/-- **A run that loads files** generates from them, on the tree that was there at first. -/
theorem exists_prepare_eq {settings : Settings} {s : LoggedDisk} {input output : Path} {files : List DeclarationFile}
    (hdirectories : settings.directories = .ok (input, output)) (hloads : settings.Loads parser input s files) :
    ∃ s₁ : LoggedDisk, s₁.disk = s.disk ∧
      ExceptT.run (settings.prepare parser) s =
        ((settings.generate files).map fun g => (output, files.length, g), s₁) := by
  obtain ⟨paths, s₁, s₂, hdiscover, hload⟩ := hloads
  have hdisk : s₁.disk = s.disk := (TreeStays.discover input settings.platform).of_ends hdiscover
  have hdisk' : s₂.disk = s₁.disk := by
    have hstays := TreeStays.loadAll parser paths s₁
    rwa [Job.ends_lift.mp hload] at hstays
  let parsed : LoggedDisk := { s₂ with events := s₂.events ++ [.filesParsed files.length paths.length] }
  let generated : LoggedDisk := { parsed with events := parsed.events ++ settings.generateEvents files }
  have hparsed : Job.Ends (tellAll [.filesParsed files.length paths.length]) s₂ () parsed := Job.ends_tellAll.mpr rfl
  have hgenerated : Job.Ends (tellAll (settings.generateEvents files)) parsed () generated := Job.ends_tellAll.mpr rfl
  refine ⟨generated, hdisk'.trans hdisk, ?_⟩
  unfold prepare
  refine (Job.run_bind_of_ends (Job.ends_ofResult.mpr ⟨hdirectories, rfl⟩) _).trans ?_
  refine (Job.run_bind_of_ends hdiscover _).trans ((Job.run_bind_of_ends hload _).trans ?_)
  refine (Job.run_bind_of_ends hparsed _).trans ((Job.run_bind_of_ends hgenerated _).trans ?_)
  cases settings.generate files <;> rfl

/-- **A run that loads files** from which something is generated goes on with that. -/
theorem exists_run_eq_finish {settings : Settings} {s : LoggedDisk} {input output : Path} {files : List DeclarationFile}
    {g : Generated} (hdirectories : settings.directories = .ok (input, output))
    (hloads : settings.Loads parser input s files) (hgenerate : settings.generate files = .ok g) :
    ∃ s₁ : LoggedDisk, s₁.disk = s.disk ∧
      ExceptT.run (settings.run parser : Job (StateM LoggedDisk) Outcome) s =
        ExceptT.run (settings.finish output files.length g) s₁ := by
  obtain ⟨s₁, hdisk, hprepare⟩ := exists_prepare_eq hdirectories hloads
  rw [hgenerate] at hprepare
  have hends : (settings.prepare parser).Ends s (output, files.length, g) s₁ := hprepare
  refine ⟨s₁, hdisk, ?_⟩
  rw [run_eq]
  exact Job.run_bind_of_ends hends _

/-- **A run ends well** when its records can be materialized on the tree that is there, whatever has been told. -/
theorem exists_ends_run {settings : Settings} {s : LoggedDisk} {layout : OutputLayout} {files : List DeclarationFile}
    {w : Materialized} {P : Disk → Prop} (hdry : settings.dryRun = false)
    (hdirectories : settings.directories = .ok (layout.inputRoot, layout.outputRoot))
    (hloads : settings.Loads parser layout.inputRoot s files) (hne : files ≠ [])
    (hmaterialize : ∀ s₁ : LoggedDisk, s₁.disk = s.disk → ∃ s',
      ((settings.recordsOf layout files).materialize layout.outputRoot settings.aggregators).Ends s₁ w s' ∧ P s'.disk) :
    ∃ s', (settings.run parser).Ends s ⟨layout.outputRoot, files.length,
      (SymbolTable.build files settings.platform).size,
      (settings.recordsOf layout files).countWritten, w.files, w.aggregators, false⟩ s' ∧ P s'.disk := by
  have hgenerate := generate_eq_ok_iff.mpr ⟨layout.inputRoot, layout.outputRoot, hdirectories, hne, rfl⟩
  obtain ⟨s₁, hdisk, hrun⟩ := exists_run_eq_finish hdirectories hloads hgenerate
  obtain ⟨s', hends, hP⟩ := hmaterialize s₁ hdisk
  refine ⟨s', hrun.trans ?_, hP⟩
  rw [finish, hdry]
  exact Job.ends_bind.mpr ⟨w, s', hends, Job.ends_pure.mpr ⟨rfl, rfl⟩⟩

/-- **A run that loads files** from which something is generated fails only in writing that. -/
theorem exists_of_fails_run {settings : Settings} {s s' : LoggedDisk} {input output : Path}
    {files : List DeclarationFile}
    {g : Generated} {fault : Fault} (hdirectories : settings.directories = .ok (input, output))
    (hloads : settings.Loads parser input s files) (hgenerate : settings.generate files = .ok g)
    (h : (settings.run parser).Fails s fault s') :
    settings.dryRun = false ∧
      ∃ s₁ : LoggedDisk, s₁.disk = s.disk ∧ (g.records.materialize output settings.aggregators).Fails s₁ fault s' := by
  obtain ⟨s₁, hdisk, hrun⟩ := exists_run_eq_finish hdirectories hloads hgenerate
  have hfinish : (settings.finish output files.length g).Fails s₁ fault s' := hrun.symm.trans h
  unfold finish at hfinish
  cases hdry : settings.dryRun with
  | true =>
    rw [hdry, if_pos rfl] at hfinish
    cases ((Job.ends_tellAll (u := ())).mpr rfl).of_bind_fails hfinish
  | false =>
    rw [hdry] at hfinish
    exact ⟨rfl, s₁, hdisk, hfinish.of_bind_pure⟩

/-- Nothing is generated when no declaration files can be found. -/
theorem fails_prepare_of_discover {settings : Settings} {s s' : LoggedDisk} {input output : Path} {fault : Fault}
    (hdirectories : settings.directories = .ok (input, output))
    (h : (discover input settings.platform).Fails s fault s') :
    (settings.prepare parser).Fails s fault s' := by
  unfold prepare
  exact (Job.ends_ofResult.mpr ⟨hdirectories, rfl⟩).bind_fails (h.bind _)

/-- A run fails when no declaration files can be found. -/
theorem fails_run_of_discover {settings : Settings} {s s' : LoggedDisk} {input output : Path} {fault : Fault}
    (hdirectories : settings.directories = .ok (input, output))
    (h : (discover input settings.platform).Fails s fault s') :
    (settings.run parser).Fails s fault s' := by
  rw [run_eq]
  exact (fails_prepare_of_discover hdirectories h).bind _

end Settings

end InteropBindings
