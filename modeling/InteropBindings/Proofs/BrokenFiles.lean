import InteropBindings.Proofs.Output.Keys
import InteropBindings.Proofs.Output.Mirroring
import InteropBindings.Proofs.Sources
import InteropBindings.TypeScript

/-!
# Broken files

A declaration file that holds no text, or one that cannot be parsed, is left out. So a tree with more of them below the
input directory has the same sources (`Disk.AddsBroken.isSource_iff`), in the same order, and a run generates the same
from it. Writing that is the same too when the output root lies apart from the input directory
(`Settings.run_with_brokenFiles`).

All that a broken file can do is to bring a directory with a path that is too long, at which the search is stopped.
-/

namespace InteropBindings

open Disk (Twins)

/-! ## What may be added -/

/-- The declarations in a file under some path, if it holds a text that can be parsed. -/
def Content.parse? (parser : Parser) (p : Path) : Content → Option DeclarationFile
  | .text s => (DeclarationFile.parse parser p s).toOption
  | .bytes _ => none

/-- An entry without declarations: a directory, or a broken file. -/
def Entry.IsBroken (parser : Parser) (p : Path) : Entry → Prop
  | .directory => True
  | .file c => c.parse? parser p = none
  | .link _ => False

instance (parser : Parser) (p : Path) : DecidablePred (Entry.IsBroken parser p) := fun e => by
  unfold Entry.IsBroken
  split <;> infer_instance

namespace Disk

/-- A tree with broken files added at any depth below a directory, in new directories too. -/
structure AddsBroken (parser : Parser) (dir : Path) (place : Place) (d d' : Disk) : Prop where
  workingDirectory : d'.workingDirectory = d.workingDirectory
  keeps : ∀ q e, d.entryAt q = some e → d'.entryAt q = some e
  adds : ∀ q e, d.entryAt q = none → d'.entryAt q = some e →
    ∃ names, names ≠ [] ∧ q = place ++ names ∧ e.IsBroken parser (names.foldl Path.join dir)

variable {parser : Parser} {d d' : Disk} {dir p : Path} {place : Place} {platform : PlatformFilter}
    {file : DeclarationFile}

/-- Broken files are found among the places of a tree. -/
theorem addsBroken_of_keys (hworking : d'.workingDirectory = d.workingDirectory)
    (hkeeps : ∀ key ∈ d.entries.keys, d'.entryAt key = d.entryAt key)
    (hadds : ∀ key ∈ d'.entries.keys, d.entryAt key = none → place <+: key ∧ place ≠ key ∧
      ∀ e ∈ d'.entryAt key, e.IsBroken parser ((key.drop place.length).foldl Path.join dir)) :
    d.AddsBroken parser dir place d' := by
  refine ⟨hworking, fun q e he => ?_, fun q e hnone he => ?_⟩
  · by_cases hroot : q = []
    · subst hroot
      exact he
    · rwa [hkeeps q ((isSome_entryAt_iff hroot).mp (Option.isSome_of_eq_some he))]
  · have hroot : q ≠ [] := by
      rintro rfl
      cases hnone
    obtain ⟨⟨names, rfl⟩, hne, hbroken⟩ := hadds q ((isSome_entryAt_iff hroot).mp (Option.isSome_of_eq_some he)) hnone
    rw [List.drop_left] at hbroken
    exact ⟨names, by rintro rfl; simp at hne, rfl, hbroken e he⟩

namespace AddsBroken

variable (h : d.AddsBroken parser dir place d')

include h

theorem entryAt_eq {q : Place} (hq : ¬ place.IsBelow q) : d'.entryAt q = d.entryAt q := by
  cases hentry : d.entryAt q with
  | some e => exact h.keeps q e hentry
  | none =>
    cases hentry' : d'.entryAt q with
    | none => rfl
    | some e =>
      obtain ⟨names, hne, rfl, _⟩ := h.adds q e hentry hentry'
      exact absurd ⟨List.prefix_append _ _, by simpa using hne⟩ hq

theorem twins (hplain : d.IsPlain) (hplain' : d'.IsPlain) : Twins place d d' d d' :=
  ⟨hplain, hplain', rfl, h.workingDirectory, fun _ => h.entryAt_eq, fun _ _ => ⟨rfl, rfl⟩⟩

theorem grows : d.Grows d' := by
  refine ⟨h.workingDirectory, fun q e he => ⟨e, h.keeps q e he, .same e⟩, fun q target hlink => ?_⟩
  cases hentry : d.entryAt q with
  | some e => rw [← hlink, h.keeps q e hentry]
  | none =>
    obtain ⟨_, _, _, hbroken⟩ := h.adds q _ hentry hlink
    cases hbroken

theorem walkable (hwalkable : d'.Walkable place dir) : d.Walkable place dir :=
  fun names hne hentry => hwalkable names hne (h.keeps _ _ hentry)

end AddsBroken

/-! ## Sources of a plain tree -/

/-- Where no path is too long, all entries below a directory lead somewhere. -/
theorem IsPlain.isSearchable (h : d.IsPlain) (hdir : d.resolve true dir = .ok (.entry place .directory))
    (hwalkable : d.Walkable place dir) : d.IsSearchable ⟨dir, place⟩ := by
  have hfound : LoggedDisk.found ⟨d, []⟩ d.depthLimit ⟨dir, place⟩ [] = d.walk d.depthLimit place dir :=
    LoggedDisk.found_eq_walk (s := ⟨d, []⟩) h hdir
  refine (isFaultless_found_iff (s := ⟨d, []⟩) h.toIsTree hdir).mp ?_
  change IsFaultless (LoggedDisk.found ⟨d, []⟩ d.depthLimit ⟨dir, place⟩ [])
  rw [hfound]
  exact (faultless_walk_iff h.toIsTree (h.isDeepest place)).mpr hwalkable

/-- What a file below a directory is loaded as. -/
theorem IsPlain.load_foldl_join (h : d.IsPlain) (hdir : d.resolve true dir = .ok (.entry place .directory))
    (hwalkable : d.Walkable place dir) {names : List RawText} (hne : names ≠ []) {c : Content}
    (hentry : d.entryAt (place ++ names) = some (.file c)) : d.load parser (names.foldl Path.join dir) = .ok file ↔
      (names.foldl Path.join dir).text.size < 4096 ∧ c.parse? parser (names.foldl Path.join dir) = some file := by
  rw [load, read, find, h.resolve_foldl_join hdir hwalkable hne hentry]
  by_cases hlong : 4096 ≤ (names.foldl Path.join dir).text.size
  · rw [if_pos hlong]
    refine iff_of_false (fun hload => ?_) fun hboth => absurd hlong (Nat.not_le.mpr hboth.1)
    cases hload
  · rw [if_neg hlong, and_iff_right (Nat.not_le.mp hlong)]
    cases c with
    | bytes bs => constructor <;> intro h <;> cases h
    | text s =>
      change DeclarationFile.parse parser _ s = .ok file ↔ (DeclarationFile.parse parser _ s).toOption = some file
      cases DeclarationFile.parse parser (names.foldl Path.join dir) s <;> simp [Except.toOption]

/-- **The sources below a directory** are the files at any depth that can be parsed under their paths. -/
theorem IsPlain.isSource_iff (h : d.IsPlain) (hdir : d.resolve true dir = .ok (.entry place .directory))
    (hwalkable : d.Walkable place dir) : d.IsSource parser platform ⟨dir, place⟩ file ↔
      ∃ names c, names ≠ [] ∧ d.entryAt (place ++ names) = some (.file c) ∧
        isDeclarationFile (names.foldl Path.join dir) = true ∧ platform.isPlatform (names.foldl Path.join dir) = false ∧
        (names.foldl Path.join dir).text.size < 4096 ∧ c.parse? parser (names.foldl Path.join dir) = some file := by
  have hmeets : ∀ p, d.Meets ⟨dir, place⟩ [] (.file p) ↔
      ∃ names c, names ≠ [] ∧ d.entryAt (place ++ names) = some (.file c) ∧ p = names.foldl Path.join dir := fun p => by
    have hfound : LoggedDisk.found ⟨d, []⟩ d.depthLimit ⟨dir, place⟩ [] = d.walk d.depthLimit place dir :=
      LoggedDisk.found_eq_walk (s := ⟨d, []⟩) h hdir
    rw [← mem_walk_iff h.toIsTree (h.isDeepest place) hwalkable, ← hfound]
    exact (LoggedDisk.mem_found_iff (s := ⟨d, []⟩) h.toIsTree ⟨dir, place⟩ hdir).symm
  simp only [IsSource, hmeets]
  constructor
  · rintro ⟨_, ⟨names, c, hne, hentry, rfl⟩, hdeclares, hplatform, hload⟩
    exact ⟨names, c, hne, hentry, hdeclares, hplatform, (h.load_foldl_join hdir hwalkable hne hentry).mp hload⟩
  · rintro ⟨names, c, hne, hentry, hdeclares, hplatform, hparse⟩
    exact ⟨_, ⟨names, c, hne, hentry, rfl⟩, hdeclares, hplatform,
      (h.load_foldl_join hdir hwalkable hne hentry).mpr hparse⟩

/-- **Broken files are no sources**, and the others are the same ones. -/
theorem AddsBroken.isSource_iff (h : d.AddsBroken parser dir place d') (hplain : d.IsPlain) (hplain' : d'.IsPlain)
    (hdir : d.resolve true dir = .ok (.entry place .directory)) (hwalkable : d'.Walkable place dir) :
    d'.IsSource parser platform ⟨dir, place⟩ file ↔ d.IsSource parser platform ⟨dir, place⟩ file := by
  have hdir' := hplain.linkFree.resolve_directory h.grows hdir
  rw [hplain'.isSource_iff hdir' hwalkable, hplain.isSource_iff hdir (h.walkable hwalkable)]
  refine exists_congr fun names => exists_congr fun c => and_congr_right fun hne => ?_
  constructor
  · rintro ⟨hentry, hdeclares, hplatform, hshort, hparse⟩
    refine ⟨?_, hdeclares, hplatform, hshort, hparse⟩
    cases hold : d.entryAt (place ++ names) with
    | some e => rw [← hentry, h.keeps _ e hold]
    | none =>
      -- A file that is new is broken, under the very path from which it would be loaded.
      obtain ⟨names', _, heq, hbroken⟩ := h.adds _ _ hold hentry
      obtain rfl := List.append_cancel_left heq
      have hnothing : c.parse? parser (names.foldl Path.join dir) = none := hbroken
      rw [hnothing] at hparse
      cases hparse
  · rintro ⟨hentry, hrest⟩
    exact ⟨h.keeps _ _ hentry, hrest⟩

end Disk

/-! ## Runs -/

namespace Settings

variable {settings : Settings} {parser : Parser} {s t : LoggedDisk} {layout : OutputLayout} {place : Place}

/-- **The same is generated** from a tree with broken files added, and from the same sources. -/
theorem exists_prepare_of_addsBroken (hdirectories : settings.directories = .ok (layout.inputRoot, layout.outputRoot))
    (hs : s.disk.IsPlain) (ht : t.disk.IsPlain)
    (hdir : s.disk.resolve true layout.inputRoot = .ok (.entry place .directory))
    (hadds : s.disk.AddsBroken parser layout.inputRoot place t.disk)
    (hwalkable : t.disk.Walkable place layout.inputRoot) :
    ∃ files, (∀ file, file ∈ files ↔ s.disk.IsSource parser settings.platform ⟨layout.inputRoot, place⟩ file) ∧
      ∃ s₁ t₁ : LoggedDisk, s₁.disk = s.disk ∧ t₁.disk = t.disk ∧
        ExceptT.run (settings.prepare parser) s =
          ((settings.generate files).map fun g => (layout.outputRoot, files.length, g), s₁) ∧
        ExceptT.run (settings.prepare parser) t =
          ((settings.generate files).map fun g => (layout.outputRoot, files.length, g), t₁) := by
  have hdir' := hs.linkFree.resolve_directory hadds.grows hdir
  obtain ⟨files, hsorted, hmem, s₁, hdisk, hprepare⟩ := exists_prepare_of_isSearchable hs.toIsTree hdir hdirectories
    (hs.isSearchable hdir (hadds.walkable hwalkable))
  obtain ⟨files', hsorted', hmem', t₁, hdisk', hprepare'⟩ :=
    exists_prepare_of_isSearchable ht.toIsTree hdir' hdirectories
    (ht.isSearchable hdir' hwalkable)
  obtain rfl : files' = files := eq_of_pairwise_order DeclarationFile.path hsorted' hsorted fun file => by
    rw [hmem', hmem, hadds.isSource_iff hs ht hdir hwalkable]
  exact ⟨_, hmem, s₁, t₁, hdisk, hdisk', hprepare, hprepare'⟩

/-- What is generated from declarations with safe names is written below the output root. -/
theorem below_of_mem_keys_of_generate {files : List DeclarationFile} {g : Generated}
    (hdirectories : settings.directories = .ok (layout.inputRoot, layout.outputRoot))
    (hgenerate : settings.generate files = .ok g)
    (hnames : ∀ file ∈ files, ∀ l ∈ OutputRecords.boundOf file, layout.HasSafeNames l) :
    ∀ k ∈ g.records.keys, Path.LiesBelow ⟨layout.outputRoot.slashed⟩ ⟨k⟩ ∧
      Path.same ⟨layout.outputRoot.slashed⟩ ⟨k⟩ = false := by
  obtain ⟨input, output, hboth, _, rfl⟩ := generate_eq_ok_iff.mp hgenerate
  obtain ⟨rfl, rfl⟩ := Prod.mk.inj (Except.ok.inj (hboth.symm.trans hdirectories))
  intro k hk
  obtain ⟨l, hl, rfl⟩ := OutputRecords.mem_keys_route.mp hk
  obtain ⟨file, hfile, hbound⟩ := List.mem_flatMap.mp hl
  split at hbound
  · cases hbound
  · exact (hnames file hfile l hbound).putsBelow

section

variable (hdirectories : settings.directories = .ok (layout.inputRoot, layout.outputRoot)) (hs : s.disk.IsPlain)
  (ht : t.disk.IsPlain) (hdir : s.disk.resolve true layout.inputRoot = .ok (.entry place .directory))
  (hadds : s.disk.AddsBroken parser layout.inputRoot place t.disk)
  (hroot : layout.outputRoot.IsApart place s.disk.workingDirectory)
  (hslashed : Path.IsApart place s.disk.workingDirectory ⟨layout.outputRoot.slashed⟩)
  (hnames : ∀ file, s.disk.IsSource parser settings.platform ⟨layout.inputRoot, place⟩ file →
    ∀ l ∈ OutputRecords.boundOf file, layout.HasSafeNames l)

include hdirectories hs ht hdir hadds hroot hslashed hnames

/-- A run with broken files and one without them end the same way, and keep the trees twins. -/
theorem exists_run_of_addsBroken (hwalkable : t.disk.Walkable place layout.inputRoot) :
    ∃ result s' t', ExceptT.run (settings.run parser : Job (StateM LoggedDisk) Outcome) s = (result, s') ∧
      ExceptT.run (settings.run parser : Job (StateM LoggedDisk) Outcome) t = (result, t') ∧
      Twins place s.disk t.disk s'.disk t'.disk := by
  obtain ⟨files, hfiles, s₁, t₁, hdisk, hdisk', hprepare, hprepare'⟩ :=
    exists_prepare_of_addsBroken hdirectories hs ht hdir hadds hwalkable
  have htwins : TwinStates place s.disk t.disk s₁ t₁ := by
    rw [TwinStates, hdisk, hdisk']
    exact hadds.twins hs ht
  -- Up to here the runs are the same. If something is generated, what comes next mirrors itself on the twins.
  rw [run_eq]
  cases hgenerate : settings.generate files with
  | error fault =>
    rw [hgenerate] at hprepare hprepare'
    have hfails : (settings.prepare parser).Fails s fault s₁ := hprepare
    have hfails' : (settings.prepare parser).Fails t fault t₁ := hprepare'
    exact ⟨.error fault, s₁, t₁, hfails.bind _, hfails'.bind _, htwins⟩
  | ok g =>
    rw [hgenerate] at hprepare hprepare'
    have hkeys := below_of_mem_keys_of_generate hdirectories hgenerate fun file hfile =>
      hnames file ((hfiles file).mp hfile)
    have hfinish : Mirrors (TwinStates place s.disk t.disk) (settings.finish layout.outputRoot files.length g).run :=
      .finish hslashed hroot hkeys files.length
    have hends : (settings.prepare parser).Ends s (layout.outputRoot, files.length, g) s₁ := hprepare
    have hends' : (settings.prepare parser).Ends t (layout.outputRoot, files.length, g) t₁ := hprepare'
    rw [Job.run_bind_of_ends hends, Job.run_bind_of_ends hends']
    exact hfinish.exists_run htwins

/-- **Broken files have no effect on the others.** To a tree without links, broken files are added below the input
directory. When the output root lies apart from that, and names are safe, a run on the larger tree ends as on the
smaller one, with the same outcome or the same fault. It leaves the trees the same outside of the input directory, and
what is inside as it was. Without any source it finds no declaration files. Only a directory with a path that is too
long stops it. -/
theorem run_with_brokenFiles :
    (t.disk.Walkable place layout.inputRoot →
      (∃ result s' t', ExceptT.run (settings.run parser : Job (StateM LoggedDisk) Outcome) s = (result, s') ∧
        ExceptT.run (settings.run parser : Job (StateM LoggedDisk) Outcome) t = (result, t') ∧
        Twins place s.disk t.disk s'.disk t'.disk) ∧
      ((∀ file, ¬ t.disk.IsSource parser settings.platform ⟨layout.inputRoot, place⟩ file) →
        ∃ t', (settings.run parser).Fails t (.noDeclarationFiles layout.inputRoot) t' ∧ t'.disk = t.disk)) ∧
    (¬ t.disk.Walkable place layout.inputRoot → ∃ names t', t.disk.entryAt (place ++ names) = some .directory ∧
      4096 ≤ (names.foldl Path.join layout.inputRoot).text.size ∧
      (settings.run parser).Fails t (.brokenEntry (names.foldl Path.join layout.inputRoot) .nameTooLong) t' ∧
        t'.disk = t.disk) := by
  have hdir' := hs.linkFree.resolve_directory hadds.grows hdir
  refine ⟨fun hwalkable => ⟨?_, fun hnone => ?_⟩, fun hlong => ?_⟩
  · exact exists_run_of_addsBroken hdirectories hs ht hdir hadds hroot hslashed hnames hwalkable
  · exact exists_fails_run_of_no_source ht.toIsTree hdir' hdirectories (ht.isSearchable hdir' hwalkable) hnone
  · obtain ⟨names, t', hentry, hsize, hfails, hdisk⟩ := exists_fails_discover ht hdir' hlong
    exact ⟨names, t', hentry, hsize, fails_run_of_discover hdirectories hfails, hdisk⟩

end

/-! ### Broken files beside a source -/

/-- A tree with one source. -/
def soundTree : Disk where
  entries.entries := [
    (["in"], .directory),
    (["in", "bar.d.ts"], .file (.text "export class Foo \x7b\x7d\n"))]

/-- The tree with a file that is cut off, in a directory of its own, and one that holds no text. -/
def mixedTree : Disk where
  entries.entries := [
    (["in"], .directory),
    (["in", "bar.d.ts"], .file (.text "export class Foo \x7b\x7d\n")),
    (["in", "deep"], .directory),
    (["in", "deep", "half.d.ts"], .file (.text "export class Half \x7b")),
    (["in", "raw.d.ts"], .file (.bytes [255]))]

/-- What a run does on either tree. -/
def soundOutcome : Outcome where
  outputDir := ⟨"out"⟩
  declarationFiles := 1
  symbolCount := 1
  recordCount := 1
  files := [⟨"out/bar/foo.dart"⟩]
  aggregators := [⟨"out/bar/bar.dart"⟩, ⟨"out/bar.dart"⟩]

/-- The tree with one source after the run. -/
def soundAfter : Disk where
  entries.entries := [
    (["in"], .directory),
    (["in", "bar.d.ts"], .file (.text "export class Foo \x7b\x7d\n")),
    (["out"], .directory),
    (["out", "bar"], .directory),
    (["out", "bar", "foo.dart"], .file (.text (classStub ⟨"Foo"⟩ "Foo"))),
    (["out", "bar", "bar.dart"], .file (.text "// Library file for bar\nexport './foo.dart';\n")),
    (["out", "bar.dart"], .file (.text "export './bar/bar.dart';\n"))]

/-- All that has been told in the run. -/
def soundEvents : List Event :=
  [.filesFound 1 ⟨"in"⟩, .filesParsed 1 1, .tableBuilt 1, .symbolsResolved 1, .routed ⟨"Foo"⟩ "out/bar/foo.dart",
    .recordsGenerated 1, .bindingsWritten 1, .aggregatorsWritten 2]

theorem ends_soundRun :
    ((Settings.between ⟨"in"⟩ ⟨"out"⟩).run typeScript).Ends ⟨soundTree, []⟩ soundOutcome ⟨soundAfter, soundEvents⟩ := by
  decide +kernel

theorem load_of_isSource_soundTree {file : DeclarationFile}
    (h : soundTree.IsSource typeScript {} ⟨⟨"in"⟩, ["in"]⟩ file) :
    file ∈ (soundTree.load typeScript ⟨"in/bar.d.ts"⟩).toOption := by
  obtain ⟨p, hmeets, _, _, hload⟩ := h
  have hfound : LoggedDisk.found ⟨soundTree, []⟩ soundTree.depthLimit ⟨⟨"in"⟩, ["in"]⟩ [] =
    [.file ⟨"in/bar.d.ts"⟩] := by rfl
  have hmem := (LoggedDisk.mem_found_iff (s := ⟨soundTree, []⟩) (by decide) ⟨⟨"in"⟩, ["in"]⟩ (by decide)).mpr hmeets
  rw [hfound] at hmem
  obtain rfl := Found.file.inj (List.mem_singleton.mp hmem)
  rw [hload]
  rfl

/-- The run on the tree with broken files ends as the other one, and writes the same. -/
theorem run_with_brokenFiles_mixed :
    let s : LoggedDisk := ⟨soundTree, []⟩
    let t : LoggedDisk := ⟨mixedTree, []⟩
    let settings := Settings.between ⟨"in"⟩ ⟨"out"⟩
    let layout : OutputLayout := ⟨⟨"in"⟩, ⟨"out"⟩⟩
    settings.directories = .ok (layout.inputRoot, layout.outputRoot) ∧ s.disk.IsPlain ∧ t.disk.IsPlain ∧
      s.disk.resolve true ⟨"in"⟩ = .ok (.entry ["in"] .directory) ∧ s.disk.AddsBroken typeScript ⟨"in"⟩ ["in"] t.disk ∧
      Path.IsApart ["in"] [] ⟨"out"⟩ ∧ Path.IsApart ["in"] [] ⟨Path.slashed ⟨"out"⟩⟩ ∧
      (∀ file, s.disk.IsSource typeScript settings.platform ⟨⟨"in"⟩, ["in"]⟩ file →
        ∀ l ∈ OutputRecords.boundOf file, layout.HasSafeNames l) ∧
      t.disk.Walkable ["in"] ⟨"in"⟩ ∧
      ∃ t', (settings.run typeScript).Ends t soundOutcome t' ∧
        t'.disk.entryAt ["out", "bar", "foo.dart"] = some (.file (.text (classStub ⟨"Foo"⟩ "Foo"))) := by
  intro s t settings layout
  have hdirectories : settings.directories = .ok (layout.inputRoot, layout.outputRoot) := rfl
  have hs : s.disk.IsPlain := ⟨by decide, by decide⟩
  have ht : t.disk.IsPlain := ⟨by decide, by decide⟩
  have hdir : s.disk.resolve true ⟨"in"⟩ = .ok (.entry ["in"] .directory) := by decide
  have hadds : s.disk.AddsBroken typeScript ⟨"in"⟩ ["in"] t.disk :=
    Disk.addsBroken_of_keys rfl (by decide) (by decide +kernel)
  have hroot : Path.IsApart ["in"] [] ⟨"out"⟩ := by decide
  have hslashed : Path.IsApart ["in"] [] ⟨Path.slashed ⟨"out"⟩⟩ := by decide
  have hnames : ∀ file, s.disk.IsSource typeScript settings.platform ⟨⟨"in"⟩, ["in"]⟩ file →
      ∀ l ∈ OutputRecords.boundOf file, layout.HasSafeNames l := by
    have hloaded : ∀ file ∈ (soundTree.load typeScript ⟨"in/bar.d.ts"⟩).toOption, ∀ l ∈ OutputRecords.boundOf file,
        OutputLayout.HasSafeNames ⟨⟨"in"⟩, ⟨"out"⟩⟩ l := by decide +kernel
    exact fun file hfile => hloaded file (load_of_isSource_soundTree hfile)
  have hwalkable : t.disk.Walkable ["in"] ⟨"in"⟩ := by decide
  refine ⟨hdirectories, hs, ht, hdir, hadds, hroot, hslashed, hnames, hwalkable, ?_⟩
  obtain ⟨⟨result, s', t', hrun, hrun', htwins⟩, _⟩ :=
    (run_with_brokenFiles hdirectories hs ht hdir hadds hroot hslashed hnames).1 hwalkable
  obtain ⟨rfl, rfl⟩ := Prod.mk.inj (hrun.symm.trans ends_soundRun)
  refine ⟨t', hrun', (htwins.outside _ (by simp [Place.IsBelow])).trans (by decide)⟩

end Settings

end InteropBindings
