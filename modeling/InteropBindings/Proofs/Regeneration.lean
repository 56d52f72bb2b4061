import InteropBindings.Proofs.Files.Finding
import InteropBindings.Proofs.Output.Rewriting
import InteropBindings.Proofs.Output.Routing
import InteropBindings.TypeScript

/-!
# Running again

A run writes binding files only (`OutputRecords.isBindingPath_of_isOutputPath`). So on the tree that it leaves it loads
the same declaration files and materializes the same records again, and that changes nothing. All that can stop it is a
directory that the first run has made below the input directory under a path that is too long (`Settings.run_again`).
-/

namespace InteropBindings

open Disk

/-! ## Paths of binding files -/

theorem isBindingPath_join (p : Path) (stem : String) : IsBindingPath (p.join (stem ++ ".dart" : String)) := by
  rw [IsBindingPath, Path.join, RawText.ofString_append, RawText.endsWith_iff]
  cases habsolute : Path.isAbsolute ⟨stem ++ ".dart"⟩ with
  | true =>
    rw [Path.push, if_pos habsolute]
    exact ⟨stem, rfl⟩
  | false =>
    rw [Path.push_eq p habsolute, ← RawText.append_assoc]
    exact ⟨_, rfl⟩

theorem isBindingPath_slashed {p : Path} (h : IsBindingPath p) : IsBindingPath ⟨p.slashed⟩ := by
  obtain ⟨stem, hstem⟩ := RawText.endsWith_iff.mp h
  obtain rfl : p = ⟨stem ++ ".dart"⟩ := congrArg Path.mk hstem
  have hslashed : Path.slashed ⟨".dart"⟩ = ".dart" := by decide
  rw [IsBindingPath, Path.slashed_append_ofString, hslashed, RawText.endsWith_ofString]
  exact Text.endsWith_append _ ".dart"

namespace OutputRecords

variable {files : List DeclarationFile} {table : SymbolTable} {layout : OutputLayout} {root p : Path}

theorem isBindingPath_pathOf (layout : OutputLayout) (l : Located) : IsBindingPath ⟨layout.pathOf l⟩ :=
  isBindingPath_slashed (isBindingPath_join (layout.folder l.around l.file) (Text.lower l.declaration.name))

/-- **Only binding files are written.** -/
theorem isBindingPath_of_isOutputPath (h : (route files table layout).IsOutputPath root p) : IsBindingPath p := by
  rcases h with hrecord | ⟨folder, _, rfl | rfl⟩
  · obtain ⟨⟨key, record⟩, hentry, hkept⟩ := List.mem_filterMap.mp hrecord
    obtain ⟨_, hpath⟩ := Option.ite_none_left_eq_some.mp hkept
    obtain rfl := Option.some.inj hpath
    obtain ⟨l, _, rfl⟩ := exists_visited_of_mem_entries hentry
    exact isBindingPath_pathOf layout l
  · exact isBindingPath_join folder _
  · exact isBindingPath_join root _

end OutputRecords

/-! ## Again -/

namespace Settings

variable {settings : Settings} {parser : Parser} {s s' t : LoggedDisk} {o : Outcome}

/-- **Running again** on the tree that a run has left has the same outcome and changes nothing, unless some directory
below the input directory has a path that is too long. Then the run fails there, and still changes nothing. -/
theorem run_again (hdry : settings.dryRun = false) (htree : s.disk.IsTree) (hlinks : s.disk.LinkFree)
    (h : (settings.run parser).Ends s o s') (ht : t.disk = s'.disk) :
    ∃ input output, settings.directories = .ok (input, output) ∧
      (t.disk.Walkable (t.disk.placeOf input) input → ∃ t', (settings.run parser).Ends t o t' ∧ t'.disk = t.disk) ∧
      (¬ t.disk.Walkable (t.disk.placeOf input) input → ∃ names t',
        t.disk.entryAt (t.disk.placeOf input ++ names) = some .directory ∧
        4096 ≤ (names.foldl Path.join input).text.size ∧
        (settings.run parser).Fails t (.brokenEntry (names.foldl Path.join input) .nameTooLong) t' ∧
          t'.disk = t.disk) := by
  obtain ⟨layout, files, s₁, w, hdirectories, hloads, hne, hdisk, hmaterialize, rfl⟩ := exists_of_run h hdry
  have hplain : s.disk.IsPlain := ⟨htree, hlinks⟩
  have hplain₁ : s₁.disk.IsPlain := hdisk ▸ hplain
  obtain ⟨hwritten, hplain'⟩ := OutputRecords.extending_materialize hmaterialize hplain₁
  have hextends : Extends IsBindingPath s.disk t.disk := by
    rw [ht, ← hdisk]
    exact hwritten.mono fun _ => OutputRecords.isBindingPath_of_isOutputPath
  have hplainAgain : t.disk.IsPlain := ht ▸ hplain'
  refine ⟨layout.inputRoot, layout.outputRoot, hdirectories, fun hwalkable => ?_, fun hlong => ?_⟩
  · have hloadsAgain : settings.Loads parser layout.inputRoot t files :=
      (loads_of_extends hplain hplainAgain hextends hloads).mpr ⟨hwalkable, rfl⟩
    refine exists_ends_run (w := w) (P := (· = t.disk)) hdry hdirectories hloadsAgain hne fun t₁ ht₁ => ?_
    obtain ⟨t', hagain, hstays⟩ := OutputRecords.exists_materialize_again hmaterialize hplain₁ (ht₁.trans ht)
    exact ⟨t', hagain, hstays.trans ht₁⟩
  · obtain ⟨hdir, _⟩ := (loads_iff hplain).mp hloads
    have hdirAgain : t.disk.resolve true layout.inputRoot =
        .ok (.entry (t.disk.placeOf layout.inputRoot) .directory) := by
      rw [hextends.placeOf]
      exact hlinks.resolve_directory hextends.grows hdir
    obtain ⟨names, t', hentry, hsize, hfails, hstays⟩ := exists_fails_discover hplainAgain hdirAgain hlong
    exact ⟨names, t', hentry, hsize, fails_run_of_discover hdirectories hfails, hstays⟩

/-! ### An output root among the sources -/

/-- A tree with an output root below its input directory. A source file without a stem has its bindings right at the
root. -/
def nestedTree : Disk where
  entries.entries := [
    (["in"], .directory),
    (["in", ".d.ts"], .file (.text "export class Foo \x7b\x7d\n")),
    (["in", "out"], .directory),
    (["in", "out", "bar.dart"], .file (.text ""))]

/-- What a run does there. -/
def nestedOutcome : Outcome where
  outputDir := ⟨"in/out"⟩
  declarationFiles := 1
  symbolCount := 1
  recordCount := 1
  files := [⟨"in/out/foo.dart"⟩]
  aggregators := [⟨"in/out/out.dart"⟩, ⟨"in/out/out.dart"⟩]

/-- The tree after the run: the export of the root has taken the place of its aggregator. -/
def nestedAfter : Disk where
  entries.entries := [
    (["in"], .directory),
    (["in", ".d.ts"], .file (.text "export class Foo \x7b\x7d\n")),
    (["in", "out"], .directory),
    (["in", "out", "bar.dart"], .file (.text "")),
    (["in", "out", "foo.dart"], .file (.text (classStub ⟨"Foo"⟩ "Foo"))),
    (["in", "out", "out.dart"], .file (.text (exportStatement "out.dart" ++ "\n")))]

/-- All that has been told in the run. -/
def nestedEvents : List Event :=
  [.filesFound 1 ⟨"in"⟩, .filesParsed 1 1, .tableBuilt 1, .symbolsResolved 1, .routed ⟨"Foo"⟩ "in/out/foo.dart",
    .recordsGenerated 1, .bindingsWritten 1, .aggregatorsWritten 2]

theorem ends_nestedRun :
    ((Settings.between ⟨"in"⟩ ⟨"in/out"⟩).run typeScript).Ends ⟨nestedTree, []⟩ nestedOutcome
      ⟨nestedAfter, nestedEvents⟩ := by
  decide +kernel

/-- It can be run again, with the same outcome. -/
theorem run_again_nested : nestedTree.IsTree ∧ nestedTree.LinkFree ∧
    ((Settings.between ⟨"in"⟩ ⟨"in/out"⟩).run typeScript).Ends ⟨nestedTree, []⟩ nestedOutcome
      ⟨nestedAfter, nestedEvents⟩ ∧
    ∃ t', ((Settings.between ⟨"in"⟩ ⟨"in/out"⟩).run typeScript).Ends ⟨nestedAfter, []⟩ nestedOutcome t' ∧
      t'.disk = nestedAfter := by
  have htree : nestedTree.IsTree := by decide
  have hlinks : nestedTree.LinkFree := by decide
  refine ⟨htree, hlinks, ends_nestedRun, ?_⟩
  obtain ⟨input, output, hdirectories, hagain, _⟩ :=
    run_again (t := ⟨nestedAfter, []⟩) rfl htree hlinks ends_nestedRun rfl
  have hinput : input = ⟨"in"⟩ := (Prod.mk.inj (Except.ok.inj hdirectories)).1.symm
  subst hinput
  exact hagain (by decide)

end Settings

end InteropBindings
