import InteropBindings.Proofs.Files.Walking
import InteropBindings.Proofs.Generation

/-!
# What is found and loaded

The declaration files that a search meets are found, unless a fault is met too, and those that can be read and parsed
are loaded (`Settings.loads_iff_found`). In a plain tree only a path that is too long is a fault (`Settings.loads_iff`).
From such a tree that has been extended by binding files the same files are loaded, in the same order, or nothing when a
path has got too long (`Settings.loads_of_extends`).
-/

namespace InteropBindings

open Disk

variable {parser : Parser} {s : LoggedDisk} {platform : PlatformFilter} {dir : Path}

/-! ## Finding -/

/-- **What is found** below a directory. -/
theorem result_discover (hdir : s.disk.resolve true dir = .ok (.entry place .directory)) :
    ((discover dir platform : Job (StateM LoggedDisk) (List Path)).run.run s).1 =
      match declarationFiles platform (s.found s.disk.depthLimit ⟨dir, place⟩ []) with
      | .error fault => .error fault
      | .ok [] => .error (.noDeclarationFiles dir)
      | .ok (file :: files) => .ok (sortedPaths (file :: files)) := by
  have hstatus : Job.Ends (ExceptT.lift (FileAccess.status dir)) s (.ok ⟨Kind.directory, place⟩) s := by
    rw [Job.ends_lift, run_status, status, find, hdir]
    rfl
  have hdepth : Job.Ends (ExceptT.lift FileAccess.depthLimit) s s.disk.depthLimit s := Job.ends_lift.mpr rfl
  have hsearch : Job.Ends (ExceptT.lift (search s.disk.depthLimit [⟨dir, place⟩] dir)) s
      (s.found s.disk.depthLimit ⟨dir, place⟩ []) s := Job.ends_lift.mpr (s.run_search _ ⟨dir, place⟩ [])
  unfold discover
  refine (congrArg Prod.fst (Job.run_bind_of_ends hstatus _)).trans ?_
  dsimp only
  rw [if_pos rfl]
  refine (congrArg Prod.fst (Job.run_bind_of_ends hdepth _)).trans ?_
  refine (congrArg Prod.fst (Job.run_bind_of_ends hsearch _)).trans ?_
  refine (congrArg Prod.fst (Job.run_bind_of_ends (a := ()) (Job.ends_tellAll.mpr rfl) _)).trans ?_
  cases declarationFiles platform (s.found s.disk.depthLimit ⟨dir, place⟩ []) with
  | error fault => rfl
  | ok files => cases files <;> rfl

/-- A directory in which declaration files are found is one. -/
theorem exists_of_discover {s' : LoggedDisk} {paths : List Path} (h : (discover dir platform).Ends s paths s') :
    ∃ place, s.disk.resolve true dir = .ok (.entry place .directory) := by
  unfold discover at h
  obtain ⟨status, s₁, hstatus, h₁⟩ := Job.ends_bind.mp h
  rw [Job.ends_lift, run_status] at hstatus
  obtain ⟨rfl, rfl⟩ := Prod.mk.inj hstatus
  cases hresult : s.disk.status dir with
  | error reason =>
    rw [hresult] at h₁
    exact absurd h₁ Job.not_ends_throw
  | ok st =>
    rw [hresult] at h₁
    dsimp only at h₁
    split at h₁
    · next hkind => exact ⟨st.place, resolve_of_status hresult hkind⟩
    · obtain ⟨_, _, hthrow, _⟩ := Job.ends_bind.mp h₁
      exact absurd hthrow Job.not_ends_throw

/-- The declaration files that a search meets below a directory. -/
def LoggedDisk.declarationPaths (s : LoggedDisk) (platform : PlatformFilter) (dir : Ancestor) : List Path :=
  (s.found s.disk.depthLimit dir []).filterMap (Found.kept? platform)

/-- **Declaration files are found** when a search meets some and is not stopped. -/
theorem exists_ends_discover_iff (hdir : s.disk.resolve true dir = .ok (.entry place .directory)) {paths : List Path} :
    (∃ s', (discover dir platform).Ends s paths s') ↔ IsFaultless (s.found s.disk.depthLimit ⟨dir, place⟩ []) ∧
      s.declarationPaths platform ⟨dir, place⟩ ≠ [] ∧ paths =
        sortedPaths (s.declarationPaths platform ⟨dir, place⟩) := by
  constructor
  · rintro ⟨s', hends⟩
    have hresult : _ = Except.ok paths := congrArg Prod.fst hends
    rw [result_discover hdir] at hresult
    cases hfiles : declarationFiles platform (s.found s.disk.depthLimit ⟨dir, place⟩ []) with
    | error fault =>
      rw [hfiles] at hresult
      cases hresult
    | ok files =>
      obtain ⟨hfaultless, rfl⟩ := declarationFiles_eq_ok_iff.mp hfiles
      rw [hfiles] at hresult
      rw [LoggedDisk.declarationPaths]
      refine ⟨hfaultless, ?_⟩
      cases hlist : (s.found s.disk.depthLimit ⟨dir, place⟩ []).filterMap (Found.kept? platform) with
      | nil =>
        rw [hlist] at hresult
        cases hresult
      | cons file files =>
        rw [hlist] at hresult
        exact ⟨List.cons_ne_nil _ _, (Except.ok.inj hresult).symm⟩
  · rw [LoggedDisk.declarationPaths]
    rintro ⟨hfaultless, hne, rfl⟩
    refine ⟨_, Job.ends_of_answer ?_⟩
    rw [result_discover hdir, declarationFiles_eq_ok_iff.mpr ⟨hfaultless, rfl⟩]
    cases hlist : (s.found s.disk.depthLimit ⟨dir, place⟩ []).filterMap (Found.kept? platform) with
    | nil => exact absurd hlist hne
    | cons file files => rfl

/-- **Nothing is found** when a search is stopped. -/
theorem exists_fails_discover_of_fault (platform : PlatformFilter)
    (hdir : s.disk.resolve true dir = .ok (.entry place .directory))
    (hfaulty : ¬ IsFaultless (s.found s.disk.depthLimit ⟨dir, place⟩ [])) :
    ∃ fault s', Found.fault fault ∈ s.found s.disk.depthLimit ⟨dir, place⟩ [] ∧
      (discover dir platform).Fails s fault s' ∧ s'.disk = s.disk := by
  obtain ⟨fault, hmem, herror⟩ := exists_declarationFiles_eq_error hfaulty
  refine ⟨fault, _, hmem, Job.fails_of_fault ?_, TreeStays.discover dir platform s⟩
  rw [result_discover hdir, herror]

/-- Nothing is found below a directory of a plain tree when a directory has a path that is too long. -/
theorem exists_fails_discover (h : s.disk.IsPlain) (hdir : s.disk.resolve true dir = .ok (.entry place .directory))
    (hlong : ¬ s.disk.Walkable place dir) :
    ∃ names s', s.disk.entryAt (place ++ names) = some .directory ∧ 4096 ≤ (names.foldl Path.join dir).text.size ∧
      (discover dir platform).Fails s (.brokenEntry (names.foldl Path.join dir) .nameTooLong) s' ∧
        s'.disk = s.disk := by
  have hfaulty := mt (faultless_walk_iff h.toIsTree (h.isDeepest place)).mp hlong
  rw [← LoggedDisk.found_eq_walk h hdir] at hfaulty
  obtain ⟨fault, s', hmem, hfails, hdisk⟩ := exists_fails_discover_of_fault platform hdir hfaulty
  rw [LoggedDisk.found_eq_walk h hdir] at hmem
  obtain ⟨names, _, hentry, hsize, rfl⟩ := h.exists_of_fault_mem_walk hmem
  exact ⟨names, s', hentry, hsize, hfails, hdisk⟩

/-! ## Loading -/

/-- The declarations of a file in a tree; a fault if it cannot be read or parsed. -/
def Disk.load (d : Disk) (parser : Parser) (p : Path) : Except Fault DeclarationFile :=
  (d.read p).mapError (.unreadable p) >>= DeclarationFile.parse parser p

theorem run_load (s : LoggedDisk) (p : Path) :
    StateT.run (DeclarationFile.load parser p : Job (StateM LoggedDisk) DeclarationFile).run s =
      (s.disk.load parser p, s) := by
  have hallowed : StateT.run (allowed (.unreadable p) (FileAccess.read p) : Job (StateM LoggedDisk) String).run s =
      ((s.disk.read p).mapError (.unreadable p), s) := rfl
  have hbind := Job.run_bind (s := s) (allowed (.unreadable p) (FileAccess.read p)) fun text =>
    ofResult (DeclarationFile.parse parser p text)
  refine hbind.trans ?_
  rw [hallowed, Disk.load]
  cases s.disk.read p <;> rfl

/-- **Loading files** gives those that can be read and parsed, in order. -/
theorem run_loadAll (s : LoggedDisk) (paths : List Path) :
    (StateT.run (loadAll parser paths : StateM LoggedDisk (List DeclarationFile)) s).1 =
      paths.filterMap fun p => (s.disk.load parser p).toOption := by
  induction paths generalizing s with
  | nil => rfl
  | cons path paths ih =>
    rw [loadAll, run_bind_eq (run_load s path), List.filterMap_cons]
    cases hload : s.disk.load parser path with
    | ok file =>
      have hkept : (s.disk.load parser path).toOption = some file := by rw [hload]; rfl
      rw [← hload, hkept, hload, StateT.run_bind]
      change file :: (StateT.run (loadAll parser paths : StateM LoggedDisk (List DeclarationFile)) s).1 = _
      rw [ih]
    | error fault =>
      have hskipped : (s.disk.load parser path).toOption = none := by rw [hload]; rfl
      have htell : StateT.run (FileAccess.tell (.fileSkipped path fault) : StateM LoggedDisk Unit) s =
          ((), { s with events := s.events ++ [.fileSkipped path fault] }) := rfl
      rw [← hload, hskipped, hload, run_bind_eq htell, ih]

/-- The declaration files that a walk meets below a path. -/
def Disk.declarationPaths (d : Disk) (platform : PlatformFilter) (dir : Path) : List Path :=
  (d.walk d.depthLimit (d.placeOf dir) dir).filterMap (Found.kept? platform)

namespace Settings

variable {settings : Settings} {input : Path} {files : List DeclarationFile}

/-- **What a run loads** from a directory. -/
theorem loads_iff_found (hdir : s.disk.resolve true input = .ok (.entry place .directory)) :
    settings.Loads parser input s files ↔
    IsFaultless (s.found s.disk.depthLimit ⟨input, place⟩ []) ∧
      s.declarationPaths settings.platform ⟨input, place⟩ ≠ [] ∧
      files = (sortedPaths (s.declarationPaths settings.platform ⟨input, place⟩)).filterMap fun p =>
        (s.disk.load parser p).toOption := by
  constructor
  · rintro ⟨paths, s₁, s₂, hdiscover, hload⟩
    obtain ⟨hfaultless, hne, rfl⟩ := (exists_ends_discover_iff hdir).mp ⟨s₁, hdiscover⟩
    have hdisk : s₁.disk = s.disk := (TreeStays.discover input settings.platform).of_ends hdiscover
    refine ⟨hfaultless, hne, ?_⟩
    have hfiles := congrArg Prod.fst (Job.ends_lift.mp hload)
    rw [run_loadAll, hdisk] at hfiles
    exact hfiles.symm
  · rintro ⟨hfaultless, hne, rfl⟩
    obtain ⟨s₁, hdiscover⟩ := (exists_ends_discover_iff hdir).mpr ⟨hfaultless, hne, rfl⟩
    have hdisk : s₁.disk = s.disk := (TreeStays.discover input settings.platform).of_ends hdiscover
    refine ⟨_, s₁, _, hdiscover, Job.ends_lift.mpr (Prod.ext ?_ rfl)⟩
    rw [run_loadAll, hdisk]

/-- What a run loads from a plain tree. -/
theorem loads_iff (h : s.disk.IsPlain) : settings.Loads parser input s files ↔
    s.disk.resolve true input = .ok (.entry (s.disk.placeOf input) .directory) ∧
      s.disk.Walkable (s.disk.placeOf input) input ∧ s.disk.declarationPaths settings.platform input ≠ [] ∧
      files = (sortedPaths (s.disk.declarationPaths settings.platform input)).filterMap fun p =>
        (s.disk.load parser p).toOption := by
  by_cases hplace : ∃ place, s.disk.resolve true input = .ok (.entry place .directory)
  · obtain ⟨place, hdir⟩ := hplace
    obtain rfl := h.linkFree.eq_placeOf hdir
    rw [loads_iff_found hdir, LoggedDisk.declarationPaths, LoggedDisk.found_eq_walk h hdir,
      faultless_walk_iff h.toIsTree (h.isDeepest _), declarationPaths]
    simp only [hdir, true_and]
  · constructor
    · rintro ⟨paths, s₁, s₂, hdiscover, _⟩
      exact absurd (exists_of_discover hdiscover) hplace
    · rintro ⟨hdir, _⟩
      exact absurd ⟨_, hdir⟩ hplace

/-- **From a tree with more binding files** a run loads the same, or nothing when a path has got too long. -/
theorem loads_of_extends {t : LoggedDisk} (hplain : s.disk.IsPlain) (hplain' : t.disk.IsPlain)
    (hextends : Extends IsBindingPath s.disk t.disk) (hloads : settings.Loads parser input s files)
    {files' : List DeclarationFile} :
    settings.Loads parser input t files' ↔ t.disk.Walkable (t.disk.placeOf input) input ∧ files' = files := by
  obtain ⟨hdir, _, hne, rfl⟩ := (loads_iff hplain).mp hloads
  have hdir' : t.disk.resolve true input = .ok (.entry (t.disk.placeOf input) .directory) := by
    rw [hextends.placeOf]
    exact hplain.linkFree.resolve_directory hextends.grows hdir
  have hpaths : t.disk.declarationPaths settings.platform input = s.disk.declarationPaths settings.platform input := by
    rw [declarationPaths, hextends.placeOf]
    exact hextends.filterMap_walk hplain.toIsTree hplain'.toIsTree hextends.depthLimit_le (hplain.isDeepest _)
  have hfiles : ∀ p ∈ sortedPaths (s.disk.declarationPaths settings.platform input),
      (t.disk.load parser p).toOption = (s.disk.load parser p).toOption := by
    intro p hp
    obtain ⟨found, hfound, hkept⟩ := List.mem_filterMap.mp ((List.mergeSort_perm _ _).subset hp)
    cases found with
    | fault fault => cases hkept
    | file path =>
      simp only [Found.kept?, Option.ite_none_right_eq_some, Bool.and_eq_true, Option.some.injEq] at hkept
      obtain ⟨⟨hdeclares, _⟩, rfl⟩ := hkept
      rw [Disk.load, Disk.load, hextends.read_of_mem_walk hplain hdir hfound hdeclares]
  rw [loads_iff hplain', hpaths, List.filterMap_congr hfiles]
  constructor
  · rintro ⟨_, hwalkable, _, hsame⟩
    exact ⟨hwalkable, hsame⟩
  · rintro ⟨hwalkable, hsame⟩
    exact ⟨hdir', hwalkable, hne, hsame⟩

end Settings

end InteropBindings
