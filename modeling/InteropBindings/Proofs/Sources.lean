import InteropBindings.Proofs.Files.Finding
import InteropBindings.Proofs.Path.Order
import InteropBindings.TypeScript
import Mathlib.Data.List.Sort

/-!
# Sources

The sources of a run are the declaration files at any depth below its input directory, over links too, that can be read
and parsed, platform files apart (`Disk.IsSource`). Files that cannot be read or parsed are left out.

- what a run loads are the sources (`Settings.mem_iff_of_loads`), sorted by path, each once
  (`Settings.pairwise_of_loads`);
- it loads them unless an entry leads nowhere, or a link to a directory around it (`Settings.exists_loads_iff`).

`Settings.run_loads_sources` puts these together with what comes next in a run.
-/

namespace InteropBindings

open Disk

variable {s : LoggedDisk} {parser : Parser} {platform : PlatformFilter}

/-- A source of a run: a declaration file below its input directory, no platform file, that can be read and parsed. -/
def Disk.IsSource (d : Disk) (parser : Parser) (platform : PlatformFilter) (input : Ancestor) (file : DeclarationFile) :
    Prop :=
  ∃ p, d.Meets input [] (.file p) ∧ isDeclarationFile p = true ∧ platform.isPlatform p = false ∧
    d.load parser p = .ok file

/-- All entries below a directory lead somewhere, and no link to a directory around it. -/
def Disk.IsSearchable (d : Disk) (input : Ancestor) : Prop := ∀ fault, ¬ d.Meets input [] (.fault fault)

/-! ## Paths in their order -/

/-- What is kept of what is met. -/
theorem Found.kept?_eq_some_iff {f : Found} {p : Path} :
    f.kept? platform = some p ↔ f = .file p ∧ isDeclarationFile p = true ∧ platform.isPlatform p = false := by
  cases f with
  | fault fault => simp [kept?]
  | file path =>
    simp only [kept?, Option.ite_none_right_eq_some, Bool.and_eq_true, Bool.not_eq_true',
      Option.some.injEq, Found.file.injEq]
    constructor
    · rintro ⟨hkept, rfl⟩
      exact ⟨rfl, hkept⟩
    · rintro ⟨rfl, hkept⟩
      exact ⟨hkept, rfl⟩

/-- Different paths in their order come strictly one after the other. -/
theorem pairwise_sortedPaths {paths : List Path} (h : paths.Pairwise fun p q => p.components ≠ q.components) :
    (sortedPaths paths).Pairwise fun p q => p.order q = .lt := by
  have hsorted : (sortedPaths paths).Pairwise fun p q => (p.order q).isLE = true := by
    refine List.pairwise_mergeSort (fun p q r => Std.TransCmp.isLE_trans) (fun p q => ?_) paths
    have hswap : q.order p = (p.order q).swap := Std.OrientedCmp.eq_swap
    rw [hswap]
    cases p.order q <;> rfl
  have hdifferent : (sortedPaths paths).Pairwise fun p q => p.components ≠ q.components :=
    (List.mergeSort_perm paths _).symm.pairwise h fun hne => hne.symm
  refine (hsorted.and hdifferent).imp fun {p q} hboth => ?_
  cases horder : p.order q with
  | lt => rfl
  | eq => exact absurd (beq_iff_eq.mp (Path.order_eq_iff.mp horder)) hboth.2
  | gt =>
    rw [horder] at hboth
    cases hboth.1

/-- What comes strictly one after the other by its path is told by its members. -/
theorem eq_of_pairwise_order {α : Type} (path : α → Path) {xs ys : List α}
    (h : xs.Pairwise fun a b => (path a).order (path b) = .lt)
    (h' : ys.Pairwise fun a b => (path a).order (path b) = .lt) (hmem : ∀ a, a ∈ xs ↔ a ∈ ys) : xs = ys := by
  have hirrefl : Std.Irrefl fun a b => (path a).order (path b) = .lt := ⟨fun a hlt => by
    have hself : (path a).order (path a) = .eq := Std.ReflCmp.compare_self
    rw [hself] at hlt
    cases hlt⟩
  have hantisymm : Std.Antisymm fun a b => (path a).order (path b) = .lt := ⟨fun a b hlt hgt => by
    have hswap : (path a).order (path b) = ((path b).order (path a)).swap := Std.OrientedCmp.eq_swap
    rw [hswap, hgt] at hlt
    cases hlt⟩
  exact h.eq_of_mem_iff h' hmem

/-! ## What is loaded -/

/-- A loaded file has the path from which it was loaded. -/
theorem Disk.path_of_load {d : Disk} {p : Path} {file : DeclarationFile} (h : d.load parser p = .ok file) :
    file.path = p := by
  unfold load at h
  cases hread : d.read p with
  | error reason =>
    rw [hread] at h
    cases h
  | ok text =>
    rw [hread] at h
    change (DeclarationFile.read parser p text).mapError _ = .ok file at h
    unfold DeclarationFile.read at h
    cases hitems : parser p text with
    | error e =>
      rw [hitems] at h
      cases h
    | ok items =>
      rw [hitems] at h
      cases h
      rfl

section

variable {settings : Settings} {input output : Path} {place : Place} {files : List DeclarationFile}

variable (htree : s.disk.IsTree) (hdir : s.disk.resolve true input = .ok (.entry place .directory))

include htree hdir

/-- A search meets no fault when all entries lead somewhere. -/
theorem isFaultless_found_iff :
    IsFaultless (s.found s.disk.depthLimit ⟨input, place⟩ []) ↔ s.disk.IsSearchable ⟨input, place⟩ :=
  forall_congr' fun _ => not_congr (LoggedDisk.mem_found_iff htree ⟨input, place⟩ hdir)

/-- What is found are the declaration files that there are to be met, platform files apart. -/
theorem mem_declarationPaths_iff {p : Path} : p ∈ s.declarationPaths platform ⟨input, place⟩ ↔
    s.disk.Meets ⟨input, place⟩ [] (.file p) ∧ isDeclarationFile p = true ∧ platform.isPlatform p = false := by
  rw [LoggedDisk.declarationPaths, List.mem_filterMap]
  simp only [Found.kept?_eq_some_iff]
  constructor
  · rintro ⟨_, hmem, rfl, hkept⟩
    exact ⟨(LoggedDisk.mem_found_iff htree ⟨input, place⟩ hdir).mp hmem, hkept⟩
  · rintro ⟨hmeets, hkept⟩
    exact ⟨_, (LoggedDisk.mem_found_iff htree ⟨input, place⟩ hdir).mpr hmeets, rfl, hkept⟩

omit hdir in
theorem pairwise_declarationPaths (dir : Ancestor) :
    (s.declarationPaths platform dir).Pairwise fun p q => p.components ≠ q.components := by
  rw [LoggedDisk.declarationPaths, List.pairwise_filterMap]
  refine (LoggedDisk.pairwise_found htree).imp fun hapart p hp q hq => ?_
  exact hapart p q (Found.kept?_eq_some_iff.mp hp).1 (Found.kept?_eq_some_iff.mp hq).1

namespace Settings

/-- **What a run loads** are the sources. -/
theorem mem_iff_of_loads (hloads : settings.Loads parser input s files) {file : DeclarationFile} :
    file ∈ files ↔ s.disk.IsSource parser settings.platform ⟨input, place⟩ file := by
  obtain ⟨_, _, rfl⟩ := (loads_iff_found hdir).mp hloads
  have hload : ∀ p, (s.disk.load parser p).toOption = some file ↔ s.disk.load parser p = .ok file := fun p => by
    cases s.disk.load parser p <;> simp [Except.toOption]
  simp only [List.mem_filterMap, sortedPaths, List.mem_mergeSort, mem_declarationPaths_iff htree hdir, hload,
    IsSource, and_assoc]

/-- What a run loads is sorted by path. -/
theorem pairwise_of_loads (hloads : settings.Loads parser input s files) :
    files.Pairwise fun f g => f.path.order g.path = .lt := by
  obtain ⟨_, _, rfl⟩ := (loads_iff_found hdir).mp hloads
  have hpath : ∀ {p file}, (s.disk.load parser p).toOption = some file → file.path = p := fun {p file} h => by
    cases hload : s.disk.load parser p with
    | error fault => rw [hload] at h; cases h
    | ok file' => rw [hload] at h; exact Option.some.inj h ▸ path_of_load hload
  refine List.pairwise_filterMap.mpr ((pairwise_sortedPaths (pairwise_declarationPaths htree _)).imp ?_)
  intro p q horder file hfile file' hfile'
  rwa [hpath hfile, hpath hfile']

/-- **A run loads something** when there is a source and all entries lead somewhere. -/
theorem exists_loads_iff (hsource : ∃ file, s.disk.IsSource parser settings.platform ⟨input, place⟩ file) :
    (∃ files, settings.Loads parser input s files) ↔ s.disk.IsSearchable ⟨input, place⟩ := by
  obtain ⟨_, p, hmeets, hdeclares, hplatform, _⟩ := hsource
  have hfound := (mem_declarationPaths_iff htree hdir).mpr ⟨hmeets, hdeclares, hplatform⟩
  rw [← isFaultless_found_iff htree hdir]
  simp only [loads_iff_found hdir]
  exact ⟨fun ⟨_, hfaultless, _⟩ => hfaultless, fun hfaultless => ⟨_, hfaultless, List.ne_nil_of_mem hfound, rfl⟩⟩

/-- **What a run generates from** are the sources, sorted by path, when all entries lead somewhere. Without any source
there is nothing to generate from, whether there were declaration files or not. -/
theorem exists_prepare_of_isSearchable (hdirectories : settings.directories = .ok (input, output))
    (hsearchable : s.disk.IsSearchable ⟨input, place⟩) :
    ∃ files, files.Pairwise (fun f g => f.path.order g.path = .lt) ∧
      (∀ file, file ∈ files ↔ s.disk.IsSource parser settings.platform ⟨input, place⟩ file) ∧
      ∃ s₁ : LoggedDisk, s₁.disk = s.disk ∧
        ExceptT.run (settings.prepare parser) s =
          ((settings.generate files).map fun g => (output, files.length, g), s₁) := by
  have hfaultless := (isFaultless_found_iff htree hdir).mpr hsearchable
  by_cases hnone : s.declarationPaths settings.platform ⟨input, place⟩ = []
  · have hdiscover : (discover input settings.platform).Fails s (.noDeclarationFiles input) _ := Job.fails_of_fault (by
      rw [result_discover hdir, declarationFiles_eq_ok_iff.mpr ⟨hfaultless, hnone.symm⟩])
    have hfails : (settings.prepare parser).Fails s (.noDeclarationFiles input) _ :=
      fails_prepare_of_discover hdirectories hdiscover
    have hstays := settings.treeStays_prepare parser s
    rw [hfails] at hstays
    refine ⟨[], .nil, fun file => iff_of_false List.not_mem_nil ?_, _, hstays, ?_⟩
    · rintro ⟨p, hmeets, hkept⟩
      have hmem : p ∈ s.declarationPaths settings.platform ⟨input, place⟩ :=
        (mem_declarationPaths_iff htree hdir).mpr ⟨hmeets, hkept.1, hkept.2.1⟩
      rw [hnone] at hmem
      cases hmem
    · rw [generate_nil hdirectories]
      exact hfails
  · obtain ⟨files, hloads⟩ : ∃ files, settings.Loads parser input s files :=
      ⟨_, (loads_iff_found hdir).mpr ⟨hfaultless, hnone, rfl⟩⟩
    obtain ⟨s₁, hdisk, hprepare⟩ := exists_prepare_eq hdirectories hloads
    exact ⟨_, pairwise_of_loads htree hdir hloads, fun _ => mem_iff_of_loads htree hdir hloads, s₁, hdisk, hprepare⟩

/-- **Without sources** a run finds no declaration files and changes nothing. -/
theorem exists_fails_run_of_no_source (hdirectories : settings.directories = .ok (input, output))
    (hsearchable : s.disk.IsSearchable ⟨input, place⟩)
    (hnone : ∀ file, ¬ s.disk.IsSource parser settings.platform ⟨input, place⟩ file) :
    ∃ s', (settings.run parser).Fails s (.noDeclarationFiles input) s' ∧ s'.disk = s.disk := by
  obtain ⟨files, _, hfiles, s₁, hdisk, hprepare⟩ := exists_prepare_of_isSearchable htree hdir hdirectories hsearchable
  have hnil : files = [] := List.eq_nil_iff_forall_not_mem.mpr fun file hfile => hnone file ((hfiles file).mp hfile)
  rw [hnil, generate_nil hdirectories] at hprepare
  have hfails : (settings.prepare parser).Fails s (.noDeclarationFiles input) s₁ := hprepare
  refine ⟨s₁, ?_, hdisk⟩
  rw [run_eq]
  exact hfails.bind _

/-- **Sources and nothing else.** Over any input directory with a source below it, links followed, a run loads exactly
the sources, sorted by path, and generates from them; what cannot be read or parsed is left out, and nothing but writing
can fail. That is so when all entries lead somewhere and no link to a directory around it. Any other entry makes the run
fail there, before it has written anything. -/
theorem run_loads_sources (hdirectories : settings.directories = .ok (input, output))
    (hsource : ∃ file, s.disk.IsSource parser settings.platform ⟨input, place⟩ file) :
    (s.disk.IsSearchable ⟨input, place⟩ → ∃ files g, settings.Loads parser input s files ∧
      files.Pairwise (fun f g => f.path.order g.path = .lt) ∧
      (∀ file, file ∈ files ↔ s.disk.IsSource parser settings.platform ⟨input, place⟩ file) ∧
        settings.generate files = .ok g ∧
      ∀ fault s', (settings.run parser).Fails s fault s' → settings.dryRun = false ∧
        ∃ s₁ : LoggedDisk, s₁.disk = s.disk ∧
        (g.records.materialize output settings.aggregators).Fails s₁ fault s') ∧
    (¬ s.disk.IsSearchable ⟨input, place⟩ → ∃ fault s', s.disk.Meets ⟨input, place⟩ [] (.fault fault) ∧
      (settings.run parser).Fails s fault s' ∧ s'.disk = s.disk) := by
  constructor
  · intro hsearchable
    obtain ⟨files, hloads⟩ := (exists_loads_iff htree hdir hsource).mpr hsearchable
    have hfiles : ∀ file, file ∈ files ↔ s.disk.IsSource parser settings.platform ⟨input, place⟩ file :=
      fun _ => mem_iff_of_loads htree hdir hloads
    have hne : files ≠ [] := by
      obtain ⟨file, hfile⟩ := hsource
      exact List.ne_nil_of_mem ((hfiles file).mpr hfile)
    have hgenerate := generate_eq_ok_iff.mpr ⟨input, output, hdirectories, hne, rfl⟩
    exact ⟨files, _, hloads, pairwise_of_loads htree hdir hloads, hfiles, hgenerate,
      fun fault s' hfails => exists_of_fails_run hdirectories hloads hgenerate hfails⟩
  · intro hbroken
    rw [← isFaultless_found_iff htree hdir] at hbroken
    obtain ⟨fault, s', hmem, hfails, hdisk⟩ := exists_fails_discover_of_fault settings.platform hdir hbroken
    exact ⟨fault, s', (LoggedDisk.mem_found_iff htree ⟨input, place⟩ hdir).mp hmem,
      fails_run_of_discover hdirectories hfails, hdisk⟩

end Settings

end

namespace Settings

/-! ### A directory that is shared by a link -/

/-- A tree with a link to a directory that lies elsewhere. One file is cut off, one holds no text, and one is a platform
file. -/
def linkedTree : Disk where
  entries.entries := [
    (["in"], .directory),
    (["in", "foo.d.ts"], .file (.text "export class Foo \x7b\x7d\n")),
    (["in", "half.d.ts"], .file (.text "export class Half \x7b")),
    (["in", "lib.dom.d.ts"], .file (.text "declare class Node \x7b\x7d\n")),
    (["in", "raw.d.ts"], .file (.bytes [255])),
    (["in", "shared"], .link ⟨"../common"⟩),
    (["common"], .directory),
    (["common", "bar.d.ts"], .file (.text "export class Bar \x7b\x7d\n"))]

theorem found_linkedTree : LoggedDisk.found ⟨linkedTree, []⟩ linkedTree.depthLimit ⟨⟨"in"⟩, ["in"]⟩ [] =
    [.file ⟨"in/foo.d.ts"⟩, .file ⟨"in/half.d.ts"⟩, .file ⟨"in/lib.dom.d.ts"⟩, .file ⟨"in/raw.d.ts"⟩,
      .file ⟨"in/shared/bar.d.ts"⟩] := by
  rfl

/-- The two sources are loaded, one of them over the link. -/
theorem run_loads_sources_linked :
    let s : LoggedDisk := ⟨linkedTree, []⟩
    let settings := Settings.between ⟨"in"⟩ ⟨"out"⟩
    settings.directories = .ok (⟨"in"⟩, ⟨"out"⟩) ∧ s.disk.IsTree ∧
      s.disk.resolve true ⟨"in"⟩ = .ok (.entry ["in"] .directory) ∧
      (∃ file, s.disk.IsSource typeScript settings.platform ⟨⟨"in"⟩, ["in"]⟩ file) ∧
        s.disk.IsSearchable ⟨⟨"in"⟩, ["in"]⟩ ∧
      ∃ files g, settings.Loads typeScript ⟨"in"⟩ s files ∧ settings.generate files = .ok g ∧
        files.map DeclarationFile.path = [⟨"in/foo.d.ts"⟩, ⟨"in/shared/bar.d.ts"⟩] := by
  intro s settings
  have htree : s.disk.IsTree := by decide
  have hdir : s.disk.resolve true ⟨"in"⟩ = .ok (.entry ["in"] .directory) := by decide
  have hmeets : s.disk.Meets ⟨⟨"in"⟩, ["in"]⟩ [] (.file ⟨"in/foo.d.ts"⟩) :=
    (LoggedDisk.mem_found_iff htree ⟨⟨"in"⟩, ["in"]⟩ hdir).mp (by rw [found_linkedTree]; exact List.mem_cons_self)
  have hsource : ∃ file, s.disk.IsSource typeScript settings.platform ⟨⟨"in"⟩, ["in"]⟩ file :=
    ⟨_, ⟨"in/foo.d.ts"⟩, hmeets, by decide, by decide, rfl⟩
  have hsearchable : s.disk.IsSearchable ⟨⟨"in"⟩, ["in"]⟩ := by
    rw [← isFaultless_found_iff htree hdir, found_linkedTree]
    intro fault hfault
    simp at hfault
  obtain ⟨files, g, hloads, _, _, hgenerate, _⟩ := (run_loads_sources htree hdir rfl hsource).1 hsearchable
  refine ⟨rfl, htree, hdir, hsource, hsearchable, files, g, hloads, hgenerate, ?_⟩
  have hpaths : s.declarationPaths settings.platform ⟨⟨"in"⟩, ["in"]⟩ =
      [⟨"in/foo.d.ts"⟩, ⟨"in/half.d.ts"⟩, ⟨"in/raw.d.ts"⟩, ⟨"in/shared/bar.d.ts"⟩] := by
    rw [LoggedDisk.declarationPaths, found_linkedTree]
    decide
  obtain ⟨_, _, rfl⟩ := (loads_iff_found hdir).mp hloads
  rw [hpaths, sortedPaths, List.mergeSort_of_pairwise (by decide)]
  rfl

/-! ### An entry that leads nowhere -/

/-- A tree with a source, and beside it a link to nothing. -/
def brokenTree : Disk where
  entries.entries := [
    (["in"], .directory),
    (["in", "a.d.ts"], .file (.text "export class Foo \x7b\x7d\n")),
    (["in", "broken.d.ts"], .link ⟨"missing"⟩)]

/-- Nothing is loaded there, although there is a source: the run fails at the link. -/
theorem not_loads_brokenTree :
    let s : LoggedDisk := ⟨brokenTree, []⟩
    let settings := Settings.between ⟨"in"⟩ ⟨"out"⟩
    settings.directories = .ok (⟨"in"⟩, ⟨"out"⟩) ∧ s.disk.IsTree ∧
      s.disk.resolve true ⟨"in"⟩ = .ok (.entry ["in"] .directory) ∧
      (∃ file, s.disk.IsSource typeScript settings.platform ⟨⟨"in"⟩, ["in"]⟩ file) ∧
        (¬ ∃ files, settings.Loads typeScript ⟨"in"⟩ s files) ∧
      ∃ s', (settings.run typeScript).Fails s (.brokenEntry ⟨"in/broken.d.ts"⟩ .missing) s' := by
  intro s settings
  have htree : s.disk.IsTree := by decide
  have hdir : s.disk.resolve true ⟨"in"⟩ = .ok (.entry ["in"] .directory) := by decide
  have hfound : s.found s.disk.depthLimit ⟨⟨"in"⟩, ["in"]⟩ [] =
      [.file ⟨"in/a.d.ts"⟩, .fault (.brokenEntry ⟨"in/broken.d.ts"⟩ .missing)] := by rfl
  have hmeets : s.disk.Meets ⟨⟨"in"⟩, ["in"]⟩ [] (.file ⟨"in/a.d.ts"⟩) :=
    (LoggedDisk.mem_found_iff htree ⟨⟨"in"⟩, ["in"]⟩ hdir).mp (by rw [hfound]; exact List.mem_cons_self)
  have hfaulty : ¬ IsFaultless (s.found s.disk.depthLimit ⟨⟨"in"⟩, ["in"]⟩ []) := by
    rw [hfound]
    exact fun hfaultless => hfaultless _ (List.mem_cons_of_mem _ List.mem_cons_self)
  refine ⟨rfl, htree, hdir, ⟨_, ⟨"in/a.d.ts"⟩, hmeets, by decide, by decide, rfl⟩, ?_, ?_⟩
  · rintro ⟨files, hloads⟩
    exact hfaulty ((loads_iff_found hdir).mp hloads).1
  · obtain ⟨fault, s', hmem, hfails, _⟩ := exists_fails_discover_of_fault settings.platform hdir hfaulty
    have hfault : fault = .brokenEntry ⟨"in/broken.d.ts"⟩ .missing := by
      rw [hfound] at hmem
      simpa using hmem
    exact ⟨s', fails_run_of_discover rfl (hfault ▸ hfails)⟩

end Settings

end InteropBindings
