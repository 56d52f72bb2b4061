import InteropBindings.Proofs.BrokenFiles
import InteropBindings.Proofs.Declaration.Namespaces
import InteropBindings.Proofs.Files.Discovery
import InteropBindings.Proofs.Output.Separation
import InteropBindings.Proofs.Symbol.Building
import InteropBindings.TypeScript

/-!
# Long paths

How the input directory is spelled makes no difference to where it leads, but it stands in front of the path of
everything that is found below it. So with enough slashes at its end a run fails at a directory that a search from the
plain spelling goes through (`Settings.exists_fails_run_withEndSlashes`), while files right below the input directory
can still be read.

Such a directory may hold nothing at all, so discovery does not always return the files that are there
(`not_discover_withEndSlashes`). It may be made by the run itself, or it may be brought by a file that is left out
otherwise. So a run cannot always be run again (`Settings.not_run_again_withEndSlashes`), and a broken file is not
always without effect (`Settings.not_run_alike_withEndSlashes`).
-/

namespace InteropBindings

open Disk Text
open RawText (ofString)

variable {parser : Parser}

/-! ## Slashes at the end -/

namespace Path

/-- A path with slashes behind it. -/
def withEndSlashes (p : Path) (count : Nat) : Path := ⟨p.text ++ RawText.ofList (List.replicate count slash)⟩

/-- Slashes at the end are no components. -/
theorem components_withEndSlashes {p : Path} (hp : p.text ≠ "") (count : Nat) :
    (p.withEndSlashes count).components = p.components := by
  cases count with
  | zero => simp [withEndSlashes]
  | succ count =>
    have htext : p.text ++ RawText.ofList (List.replicate (count + 1) slash) =
        p.text ++ "/" ++ RawText.ofList (List.replicate count slash) := by
      rw [List.replicate_succ, ← RawText.toList_inj]
      simp
    rw [withEndSlashes, htext, components_append_slash hp, stepsOf_slashes, List.append_nil]

theorem size_withEndSlashes (p : Path) (count : Nat) :
    (p.withEndSlashes count).text.size = p.text.size + count := by
  have hslashes : (RawText.ofList (List.replicate count slash)).size = count := List.length_replicate
  rw [withEndSlashes, RawText.size_append, hslashes]

theorem size_foldl_join_withEndSlashes {names : List RawText} (hne : names ≠ []) (h : ∀ n ∈ names, IsName n)
    (p : Path) (count : Nat) : (names.foldl join (p.withEndSlashes (count + 1))).text.size =
      p.text.size + (count + 1) + (RawText.joined slash names).size := by
  have hend : (p.withEndSlashes (count + 1)).text.endsWith "/" = true := by
    refine RawText.endsWith_iff.mpr ⟨p.text ++ RawText.ofList (List.replicate count slash), ?_⟩
    rw [withEndSlashes, List.replicate_succ', ← RawText.toList_inj]
    simp
  rw [text_foldl_join hne h, front, hend, Bool.or_true, if_pos rfl, RawText.size_append, size_withEndSlashes]

end Path

theorem Disk.IsFollowed.withEndSlashes {p : Path} (h : IsFollowed p) {count : Nat}
    (hshort : p.text.size + count < 4096) : IsFollowed (p.withEndSlashes count) := by
  refine ⟨fun hzero => ?_, fun hempty => h.nonempty ?_, ?_⟩
  · rw [Path.withEndSlashes, RawText.toList_append, RawText.toList_ofList, List.mem_append] at hzero
    rcases hzero with hzero | hzero
    · exact h.zero hzero
    · exact absurd (List.eq_of_mem_replicate hzero) (by decide)
  · exact (RawText.append_eq_empty_iff.mp hempty).1
  · rwa [Path.size_withEndSlashes]

/-- **Too many slashes** behind a path make the directories below it unreachable. -/
theorem Disk.IsTree.not_walkable_withEndSlashes {d : Disk} (h : d.IsTree) {place : Place} {input : Path}
    {names : Place} {count : Nat} (hne : names ≠ []) (hentry : d.entryAt (place ++ names) = some .directory)
    (hlong : 4096 ≤ input.text.size + (count + 1) + (RawText.joined slash names).size) :
    ¬ d.Walkable place (input.withEndSlashes (count + 1)) := fun hwalkable => by
  have hsize := hwalkable names hne hentry
  rw [Path.size_foldl_join_withEndSlashes hne (h.isName_of_entryAt hentry)] at hsize
  exact absurd hlong (Nat.not_le.mpr hsize)

namespace Settings

variable {settings : Settings} {s : LoggedDisk} {place : Place}

/-- **Too many slashes** at the end of the input directory make a run fail, when there is any directory below. -/
theorem exists_fails_run_withEndSlashes {input output : Path} {names : List RawText} {count : Nat}
    (hdirectories : settings.directories = .ok (input.withEndSlashes (count + 1), output)) (hplain : s.disk.IsPlain)
    (hdir : s.disk.resolve true input = .ok (.entry place .directory)) (hne : names ≠ [])
    (hentry : s.disk.entryAt (place ++ names) = some .directory)
    (hshort : input.text.size + (count + 1) < 4096)
    (hlong : 4096 ≤ input.text.size + (count + 1) + (RawText.joined slash names).size) :
    ∃ p s', (settings.run parser).Fails s (.brokenEntry p .nameTooLong) s' ∧ s'.disk = s.disk := by
  have hfollowed := isFollowed_of_resolve hdir
  have hdir' : s.disk.resolve true (input.withEndSlashes (count + 1)) = .ok (.entry place .directory) :=
    resolve_of_components hdir (Path.components_withEndSlashes hfollowed.nonempty _) (hfollowed.withEndSlashes hshort)
  have hbroken := hplain.toIsTree.not_walkable_withEndSlashes hne hentry hlong
  obtain ⟨_, s', _, _, hfails, hdisk⟩ := exists_fails_discover hplain hdir' hbroken
  exact ⟨_, s', fails_run_of_discover hdirectories hfails, hdisk⟩

theorem loads_singleton {input : Path} {file : DeclarationFile} (htree : s.disk.IsTree)
    (hdir : s.disk.resolve true input = .ok (.entry place .directory))
    (hsearchable : s.disk.IsSearchable ⟨input, place⟩)
    (hsource : ∀ f, s.disk.IsSource parser settings.platform ⟨input, place⟩ f ↔ f = file) :
    settings.Loads parser input s [file] := by
  obtain ⟨files, hloads⟩ := (exists_loads_iff htree hdir ⟨file, (hsource file).mpr rfl⟩).mpr hsearchable
  have hfiles : files = [file] := by
    refine eq_of_pairwise_order DeclarationFile.path (pairwise_of_loads htree hdir hloads)
      (List.pairwise_singleton _ _) ?_
    intro f
    rw [mem_iff_of_loads htree hdir hloads, hsource, List.mem_singleton]
  exact hfiles ▸ hloads

end Settings

/-! ## One source under any spelling -/

/-- The language of a file follows from its name. -/
theorem SourceKind.ofPath_join {name : RawText} (h : Path.IsName name) (p : Path) :
    SourceKind.ofPath (p.join name) = SourceKind.ofPath ⟨name⟩ := by
  have hname : Path.fileName ⟨name⟩ = some name := Path.fileName_eq_some_iff.mpr ⟨[], h.components⟩
  rw [ofPath, ofPath, Path.fileName_eq_some_iff.mpr ⟨_, h.components_join p⟩, hname]

/-- A text with one class. -/
def loneText : String := "export class Foo \x7b\x7d\n"

/-- A tree with one source. -/
def loneTree : Disk where
  entries.entries := [(["in"], .directory), (["in", "a.d.ts"], .file (.text loneText))]

/-- The source, when the input directory is spelled in some way. -/
def loneFile (input : Path) : DeclarationFile := ⟨input.join "a.d.ts", [.declaration (.classDecl ⟨"Foo", []⟩)]⟩

/-- The record of its class. -/
def loneRecords (root : Path) : OutputRecords where
  entries := [(Path.slashed ⟨root.front⟩ ++ "a/foo.dart",
    { chunks := [⟨classStub ⟨"Foo"⟩ "Foo", []⟩], signatures := .put .empty ⟨"Foo"⟩ [] })]

/-- The tree with the binding file below a new output root. -/
def loneAfter (root : Place) : Disk :=
  ((loneTree.put root .directory).put (root ++ [ofString "a"]) .directory).put
    (root ++ [ofString "a", ofString "foo.dart"]) (.file (.text (classStub ⟨"Foo"⟩ "Foo")))

theorem entryAt_loneTree {names : Place} {e : Entry} (hne : names ≠ [])
    (h : loneTree.entryAt (([ofString "in"] : Place) ++ names) = some e) :
    names = [ofString "a.d.ts"] ∧ e = .file (.text loneText) := by
  have hmem := mem_entries_of_entryAt h (by simp)
  simpa [loneTree, hne] using hmem

theorem walkable_loneTree (input : Path) : loneTree.Walkable ["in"] input := fun _ hne hentry => by
  cases (entryAt_loneTree hne hentry).2

theorem isPlatform_loneFile (input : Path) : PlatformFilter.isPlatform {} (input.join "a.d.ts") = false :=
  (PlatformFilter.isPlatform_join (by decide) _).trans (by decide)

/-- The source is parsed. -/
theorem parse_loneFile (input : Path) :
    DeclarationFile.parse typeScript (input.join "a.d.ts") loneText = .ok (loneFile input) := by
  have hkind : SourceKind.ofPath (input.join "a.d.ts") = .declarations :=
    (SourceKind.ofPath_join (by decide) input).trans (by decide +kernel)
  have hitems : Source.readItems true true loneText = .ok [.exported (.classDecl "Foo" [])] := by rfl
  have hread : DeclarationFile.read typeScript (input.join "a.d.ts") loneText = .ok (loneFile input) := by
    rw [DeclarationFile.read, typeScript_of_declarations hkind, hitems]
    rfl
  rw [DeclarationFile.parse, hread]
  rfl

theorem boundOf_loneFile (input : Path) :
    OutputRecords.boundOf (loneFile input) = [⟨input.join "a.d.ts", [], .classDecl ⟨"Foo", []⟩⟩] := by
  rfl

/-- The file of the binding lies below the output root, however the input directory is spelled. -/
theorem pathOf_loneFile (input output : Path) :
    OutputLayout.pathOf ⟨input, output⟩ ⟨input.join "a.d.ts", [], .classDecl ⟨"Foo", []⟩⟩ =
      Path.slashed ⟨output.front⟩ ++ "a/foo.dart" := by
  have hstem : ofString "a" ≠ "" := by decide
  have hname : ∀ n ∈ ([] : List RawText) ++ [ofString "a" ++ ".d.ts"], Path.IsPlainName n := by decide
  have hclass : IsSlashFree "Foo" := by decide
  have hpath := OutputLayout.outputPath_foldl_join hstem hname ⟨input, output⟩ hclass
  exact hpath

/-- What is generated from it. -/
theorem Settings.recordsOf_loneFile {settings : Settings} (input output : Path)
    (hplatform : settings.platform.isPlatform (input.join "a.d.ts") = false) :
    settings.recordsOf ⟨input, output⟩ [loneFile input] = loneRecords output := by
  have hkept : ¬ (SymbolTable.build [loneFile input] settings.platform).isPlatform (loneFile input).path = true := by
    rw [SymbolTable.isPlatform, SymbolTable.platform_build]
    exact Bool.eq_false_iff.mp hplatform
  rw [recordsOf, OutputRecords.route, List.foldl_cons, List.foldl_nil, OutputRecords.routeFile, if_neg hkept,
    boundOf_loneFile, List.foldl_cons, List.foldl_nil, OutputRecords.send, pathOf_loneFile]
  rfl

/-- A spelling of the input directory that leaves room for the source. -/
structure LeavesRoom (input : Path) : Prop where
  components : input.components = [.normal "in"]
  followed : IsFollowed input
  short : (input.join "a.d.ts").text.size < 4096

theorem leavesRoom_withEndSlashes {count : Nat} (h : count < 4087) :
    LeavesRoom (Path.withEndSlashes ⟨"in"⟩ (count + 1)) := by
  have hin : IsFollowed ⟨"in"⟩ := ⟨by decide, by decide, by decide⟩
  have hsize : (⟨"in"⟩ : Path).text.size = 2 := by decide
  have hname : (RawText.joined slash [ofString "a.d.ts"]).size = 6 := by decide
  have hne : [ofString "a.d.ts"] ≠ [] := by decide
  have hjoin := Path.size_foldl_join_withEndSlashes hne (by decide) ⟨"in"⟩ count
  rw [hsize, hname] at hjoin
  exact ⟨(Path.components_withEndSlashes hin.nonempty _).trans (by decide), hin.withEndSlashes (by rw [hsize]; omega),
    lt_of_eq_of_lt hjoin (by omega)⟩

namespace LeavesRoom

variable {input : Path} (h : LeavesRoom input)

include h

theorem resolve_eq : loneTree.resolve true input = .ok (.entry ["in"] .directory) :=
  resolve_of_components (p := ⟨"in"⟩) (by decide) h.components h.followed

/-- There is one source. -/
theorem isSource_iff {file : DeclarationFile} :
    loneTree.IsSource typeScript {} ⟨input, ["in"]⟩ file ↔ file = loneFile input := by
  have hplain : loneTree.IsPlain := ⟨by decide, by decide⟩
  have hdeclares : isDeclarationFile (input.join "a.d.ts") = true :=
    (isDeclarationFile_join (by decide)).trans (by decide)
  have hparse : Content.parse? typeScript (input.join "a.d.ts") (.text loneText) = some (loneFile input) := by
    rw [Content.parse?, parse_loneFile]
    rfl
  rw [hplain.isSource_iff h.resolve_eq (walkable_loneTree input)]
  constructor
  · rintro ⟨names, c, hne, hentry, -, -, -, hfile⟩
    obtain ⟨rfl, hcontent⟩ := entryAt_loneTree hne hentry
    obtain rfl := Entry.file.inj hcontent
    exact Option.some.inj (hfile.symm.trans hparse)
  · rintro rfl
    exact ⟨[ofString "a.d.ts"], _, List.cons_ne_nil _ _, rfl, hdeclares, isPlatform_loneFile input, h.short, hparse⟩

end LeavesRoom

/-! ## Discovery under a long spelling -/

/-- The tree with an empty directory added. -/
def emptyBesideTree : Disk := loneTree.put ["in", "subfolder"] .directory

/-- **Discovery does not always return the files that are there.** It fails at an empty directory, the path of which is
too long, beside a declaration file. -/
theorem not_discover_withEndSlashes :
    let dir := Path.withEndSlashes ⟨"in"⟩ 4086
    emptyBesideTree.IsPlain ∧ emptyBesideTree.resolve true dir = .ok (.entry ["in"] .directory) ∧
      emptyBesideTree.HasDeclarationFile {} ⟨dir, ["in"]⟩ (dir.join "a.d.ts") ∧
      ∃ p t', (discover dir {}).Fails ⟨emptyBesideTree, []⟩ (.brokenEntry p .nameTooLong) t' := by
  intro dir
  have hplain : emptyBesideTree.IsPlain := ⟨by decide, by decide⟩
  have hcount : 4085 < 4087 := by decide
  have hroom : LeavesRoom dir := leavesRoom_withEndSlashes hcount
  have hdir : emptyBesideTree.resolve true dir = .ok (.entry ["in"] .directory) :=
    resolve_of_components (p := ⟨"in"⟩) (by decide) hroom.components hroom.followed
  have hentry : emptyBesideTree.entryAt (([ofString "in"] : Place) ++ [ofString "subfolder"]) = some .directory := by
    decide
  have hbroken : ¬ emptyBesideTree.Walkable ["in"] (Path.withEndSlashes ⟨"in"⟩ (4085 + 1)) :=
    hplain.toIsTree.not_walkable_withEndSlashes (by decide) hentry (by decide +kernel)
  have hfile : emptyBesideTree.HasDeclarationFile {} ⟨dir, ["in"]⟩ (dir.join "a.d.ts") := by
    refine ⟨[], "a.d.ts", .text loneText, by decide, ?_, by decide, by decide⟩
    rw [List.nil_append, List.foldl_cons, List.foldl_nil]
  obtain ⟨names, t', _, _, hfails, _⟩ := exists_fails_discover (s := ⟨emptyBesideTree, []⟩) hplain hdir hbroken
  exact ⟨hplain, hdir, hfile, _, t', hfails⟩

/-! ## Runs under long spellings -/

/-- What has been told before makes no difference to what is materialized. -/
theorem OutputRecords.exists_materialize_of_disk_eq {records : OutputRecords} {base root : Path} {place : Place}
    {aggregators : Bool} {s s' t : LoggedDisk} {w : Materialized} (hbase : base.IsApart place s.disk.workingDirectory)
    (hroot : root.IsApart place s.disk.workingDirectory)
    (hkeys : ∀ k ∈ records.keys, Path.LiesBelow base ⟨k⟩ ∧ base.same ⟨k⟩ = false) (hplain : s.disk.IsPlain)
    (h : (records.materialize root aggregators).Ends s w s') (ht : t.disk = s.disk) :
    ∃ t', (records.materialize root aggregators).Ends t w t' ∧ Twins place s.disk s.disk s'.disk t'.disk := by
  have htwins : TwinStates place s.disk s.disk s t := by
    rw [TwinStates, ht]
    exact ⟨hplain, hplain, rfl, rfl, fun _ _ => rfl, fun _ _ => ⟨rfl, rfl⟩⟩
  obtain ⟨result, s₁, t', hrun, hrun', htwins'⟩ := (Mirrors.materialize hbase hroot hkeys aggregators).exists_run htwins
  obtain ⟨rfl, rfl⟩ := Prod.mk.inj (hrun.symm.trans h)
  exact ⟨t', hrun', htwins'⟩

namespace Settings

/-- The settings for two directories, without aggregators. -/
def bindingsBetween (input output : Path) : Settings := { between input output with aggregators := false }

/-- **As long as there is room for the source**, a run on the tree with one source ends well, and leaves what it would
leave under any other spelling. -/
theorem exists_ends_of_leavesRoom {input output : Path} {root : Place} {events : List Event} {w : Materialized}
    (hinput : LeavesRoom input)
    (hkeys : ∀ k ∈ (loneRecords output).keys, Path.LiesBelow output ⟨k⟩ ∧ output.same ⟨k⟩ = false)
    (hapart : output.IsApart ["elsewhere"] [])
    (hmaterialize : ((loneRecords output).materialize output false).Ends ⟨loneTree, []⟩ w ⟨loneAfter root, events⟩) :
    ∃ o s', ((bindingsBetween input output).run typeScript).Ends ⟨loneTree, []⟩ o s' ∧
      Twins ["elsewhere"] loneTree loneTree (loneAfter root) s'.disk := by
  have hplain : loneTree.IsPlain := ⟨by decide, by decide⟩
  have hsearchable := hplain.isSearchable hinput.resolve_eq (walkable_loneTree input)
  have hloads : (bindingsBetween input output).Loads typeScript input ⟨loneTree, []⟩ [loneFile input] :=
    loads_singleton hplain.toIsTree hinput.resolve_eq hsearchable fun _ => hinput.isSource_iff
  have hrecords : (bindingsBetween input output).recordsOf ⟨input, output⟩ [loneFile input] = loneRecords output :=
    recordsOf_loneFile input output (isPlatform_loneFile input)
  have hdirectories : (bindingsBetween input output).directories =
      .ok (OutputLayout.inputRoot ⟨input, output⟩, OutputLayout.outputRoot ⟨input, output⟩) := rfl
  obtain ⟨s', hends, htwins⟩ :=
    exists_ends_run (w := w) (P := Twins ["elsewhere"] loneTree loneTree (loneAfter root)) rfl
    hdirectories hloads (List.cons_ne_nil _ _) fun s₁ hs₁ => by
      rw [hrecords]
      exact OutputRecords.exists_materialize_of_disk_eq hapart hapart hkeys hplain hmaterialize hs₁
  exact ⟨_, s', hends, htwins⟩

/-- **A run cannot always be run again.** The output root that the first run makes below its input directory has a path
that is too long, so the second run fails there. -/
theorem not_run_again_withEndSlashes :
    let settings := bindingsBetween (Path.withEndSlashes ⟨"in"⟩ 4086) ⟨"in/generated-bindings"⟩
    settings.dryRun = false ∧ loneTree.IsTree ∧ loneTree.LinkFree ∧
      ∃ o s', (settings.run typeScript).Ends ⟨loneTree, []⟩ o s' ∧
      ∃ p t', (settings.run typeScript).Fails ⟨s'.disk, []⟩ (.brokenEntry p .nameTooLong) t' ∧ t'.disk = s'.disk := by
  intro settings
  have hkeys : ∀ k ∈ (loneRecords ⟨"in/generated-bindings"⟩).keys,
      Path.LiesBelow ⟨"in/generated-bindings"⟩ ⟨k⟩ ∧ Path.same ⟨"in/generated-bindings"⟩ ⟨k⟩ = false := by decide
  have hmaterialize :
      ((loneRecords ⟨"in/generated-bindings"⟩).materialize ⟨"in/generated-bindings"⟩ false).Ends ⟨loneTree, []⟩
      ⟨[⟨"in/generated-bindings/a/foo.dart"⟩], [⟨"in/generated-bindings/a"⟩], []⟩
      ⟨loneAfter ["in", "generated-bindings"], [.bindingsWritten 1]⟩ := by decide +kernel
  have hcount : 4085 < 4087 := by decide
  have hinput : LeavesRoom (Path.withEndSlashes ⟨"in"⟩ 4086) := leavesRoom_withEndSlashes hcount
  obtain ⟨o, s', hends, htwins⟩ := exists_ends_of_leavesRoom hinput hkeys (by decide) hmaterialize
  refine ⟨rfl, by decide, by decide, o, s', hends, ?_⟩
  have hin : Path.IsApart ["elsewhere"] [] ⟨"in"⟩ := by decide
  have hdir : s'.disk.resolve true ⟨"in"⟩ = .ok (.entry ["in"] .directory) :=
    (htwins.resolve_eq hin.clear true).trans (by decide)
  have hentry : s'.disk.entryAt (([ofString "in"] : Place) ++ [ofString "generated-bindings"]) = some .directory :=
    (htwins.outside _ (by simp [Place.IsBelow])).trans (by decide)
  have hdirectories : settings.directories = .ok (Path.withEndSlashes ⟨"in"⟩ (4085 + 1), ⟨"in/generated-bindings"⟩) :=
    rfl
  exact exists_fails_run_withEndSlashes (s := ⟨s'.disk, []⟩) hdirectories htwins.plain' hdir (by decide) hentry
    (by decide +kernel) (by decide +kernel)

/-- The tree with a file added that is cut off, in a directory of its own. -/
def brokenBesideTree : Disk where
  entries.entries := [
    (["in"], .directory),
    (["in", "a.d.ts"], .file (.text loneText)),
    (["in", "subfolder"], .directory),
    (["in", "subfolder", "b.d.ts"], .file (.text "export declare class \x7b"))]

/-- Under any spelling, only a broken file is added. -/
theorem addsBroken_brokenBesideTree (input : Path) : loneTree.AddsBroken typeScript input ["in"] brokenBesideTree := by
  have hbroken : Content.parse? typeScript ((input.join "subfolder").join "b.d.ts")
      (.text "export declare class \x7b") = none := by
    have hkind : SourceKind.ofPath ((input.join "subfolder").join "b.d.ts") = .declarations :=
      (SourceKind.ofPath_join (by decide) _).trans (by decide +kernel)
    obtain ⟨e, hitems⟩ : ∃ e, Source.readItems true true "export declare class \x7b" = .error e := ⟨_, rfl⟩
    have hread : DeclarationFile.read typeScript ((input.join "subfolder").join "b.d.ts")
        "export declare class \x7b" = .error e := by
      rw [DeclarationFile.read, typeScript_of_declarations hkind, hitems]
      rfl
    rw [Content.parse?, DeclarationFile.parse, hread]
    rfl
  have hkeys : ∀ key ∈ brokenBesideTree.entries.keys, loneTree.entryAt key = none →
      key = (["in", "subfolder"] : Place) ∨ key = (["in", "subfolder", "b.d.ts"] : Place) := by decide
  refine addsBroken_of_keys rfl (by decide) fun key hkey hnone => ?_
  rcases hkeys key hkey hnone with rfl | rfl
  · refine ⟨by decide, by decide, fun e he => ?_⟩
    obtain rfl : Entry.directory = e := Option.some.inj he
    exact trivial
  · refine ⟨by decide, by decide, fun e he => ?_⟩
    obtain rfl : Entry.file (.text "export declare class \x7b") = e := Option.some.inj he
    exact hbroken

/-- **A broken file is not always without effect.** Its directory has a path that is too long, so a run that ends well
without the file fails with it. -/
theorem not_run_alike_withEndSlashes :
    let layout : OutputLayout := ⟨Path.withEndSlashes ⟨"in"⟩ 4086, ⟨"out"⟩⟩
    let settings := bindingsBetween layout.inputRoot layout.outputRoot
    loneTree.IsPlain ∧ brokenBesideTree.IsPlain ∧ loneTree.resolve true layout.inputRoot =
      .ok (.entry ["in"] .directory) ∧
      loneTree.AddsBroken typeScript layout.inputRoot ["in"] brokenBesideTree ∧ layout.outputRoot.IsApart ["in"] [] ∧
      (∀ file, loneTree.IsSource typeScript settings.platform ⟨layout.inputRoot, ["in"]⟩ file →
        ∀ l ∈ OutputRecords.boundOf file, layout.HasSafeNames l) ∧
      (∃ o s', (settings.run typeScript).Ends ⟨loneTree, []⟩ o s') ∧
      ∃ p t', (settings.run typeScript).Fails ⟨brokenBesideTree, []⟩ (.brokenEntry p .nameTooLong) t' ∧
        t'.disk = brokenBesideTree := by
  intro layout settings
  have hcount : 4085 < 4087 := by decide
  have hinput : LeavesRoom layout.inputRoot := leavesRoom_withEndSlashes hcount
  have hnames : ∀ file, loneTree.IsSource typeScript settings.platform ⟨layout.inputRoot, ["in"]⟩ file →
      ∀ l ∈ OutputRecords.boundOf file, layout.HasSafeNames l := by
    intro file hfile l hl
    obtain rfl := hinput.isSource_iff.mp hfile
    rw [boundOf_loneFile, List.mem_singleton] at hl
    subst hl
    refine ⟨by decide, fun _ h => (by cases h), fun _ => ?_⟩
    rw [OutputLayout.PutsBelow, pathOf_loneFile]
    decide
  have hkeys : ∀ k ∈ (loneRecords ⟨"out"⟩).keys, Path.LiesBelow ⟨"out"⟩ ⟨k⟩ ∧ Path.same ⟨"out"⟩ ⟨k⟩ = false := by decide
  have hmaterialize : ((loneRecords ⟨"out"⟩).materialize ⟨"out"⟩ false).Ends ⟨loneTree, []⟩
      ⟨[⟨"out/a/foo.dart"⟩], [⟨"out/a"⟩], []⟩ ⟨loneAfter ["out"], [.bindingsWritten 1]⟩ := by decide +kernel
  obtain ⟨o, s', hends, -⟩ := exists_ends_of_leavesRoom hinput hkeys (by decide) hmaterialize
  have hplain : brokenBesideTree.IsPlain := ⟨by decide, by decide⟩
  have hdirectories : settings.directories = .ok (Path.withEndSlashes ⟨"in"⟩ (4085 + 1), ⟨"out"⟩) := rfl
  have hdir : brokenBesideTree.resolve true ⟨"in"⟩ = .ok (.entry ["in"] .directory) := by decide
  have hentry : brokenBesideTree.entryAt (([ofString "in"] : Place) ++ [ofString "subfolder"]) =
    some .directory := by decide
  refine ⟨⟨by decide, by decide⟩, hplain, hinput.resolve_eq, addsBroken_brokenBesideTree _, by decide, hnames,
    ⟨o, s', hends⟩, ?_⟩
  exact exists_fails_run_withEndSlashes (s := ⟨brokenBesideTree, []⟩) hdirectories hplain hdir (by decide) hentry
    (by decide +kernel) (by decide +kernel)

end Settings

end InteropBindings
