import InteropBindings.Proofs.Output.Materializing
import Mathlib.Data.List.Sort
import Mathlib.Data.String.Basic

/-!
# Aggregators of folders

The aggregator of a folder exports each binding file of the folder once, in the order of the names as these are shown,
and nothing else (`Disk.Exports`). It lies in the folder itself, but does not export itself, so what it exports does not
depend on whether it is there already (`exportedFiles_put`).

It is one file that is written, where its path leads (`ends_writeFolderAggregator_iff_write`). When its name does not
stand for a link, that is in the folder: it can be written into the folders that have room for it
(`exists_ends_writeFolderAggregator_iff`), and doing so again or over whatever file stood in its place gives the same
tree (`writeFolderAggregator_exact`). When its name stands for a link, the file that the link leads to is overwritten;
and names that spell no strings may be shown alike (`writeFolderAggregator_inexact`).
-/

namespace InteropBindings

open Disk Text
open RawText (ofString)

/-! ## Exported files -/

/-- The names under which binding files stand among some entries. -/
def bindingNames (excluded : List String) (entries : List (RawText × Kind)) : List RawText :=
  (entries.filter fun e => e.2 = .file && endsWith ".dart" e.1.shown && !excluded.contains e.1.shown).map Prod.fst

theorem mem_bindingNames_iff {excluded : List String} {entries : List (RawText × Kind)} {name : RawText} :
    name ∈ bindingNames excluded entries ↔
      (name, .file) ∈ entries ∧ endsWith ".dart" name.shown = true ∧ name.shown ∉ excluded := by
  simp only [bindingNames, List.mem_map, List.mem_filter, Bool.and_eq_true, decide_eq_true_eq, Bool.not_eq_true',
    List.contains_eq_mem, decide_eq_false_iff_not]
  constructor
  · rintro ⟨⟨name, kind⟩, ⟨hmem, ⟨rfl, hending⟩, hexcluded⟩, rfl⟩
    exact ⟨hmem, hending, hexcluded⟩
  · rintro ⟨hmem, hending, hexcluded⟩
    exact ⟨(name, .file), ⟨hmem, ⟨rfl, hending⟩, hexcluded⟩, rfl⟩

/-- No binding file comes twice when no name does. -/
theorem nodup_bindingNames {excluded : List String} {entries : List (RawText × Kind)}
    (hn : entries.Pairwise fun e e' => e.1 ≠ e'.1) : (bindingNames excluded entries).Nodup :=
  List.pairwise_map.mpr (hn.filter _)

theorem dartFiles_eq (excluded : List String) (entries : List (RawText × Kind)) :
    dartFiles excluded entries = ((bindingNames excluded entries).map RawText.shown).mergeSort (· ≤ ·) := by
  rw [dartFiles, bindingNames, List.map_map, ← List.filterMap_eq_map, List.filterMap_filter]
  refine congrArg (List.mergeSort · _) (List.filterMap_congr fun e _ => ?_)
  rfl

theorem sorted_dartFiles (excluded : List String) (entries : List (RawText × Kind)) :
    (dartFiles excluded entries).Pairwise (· ≤ ·) := by
  rw [dartFiles_eq]
  refine (List.pairwise_mergeSort (fun a b c => ?_) (fun a b => ?_) _).imp of_decide_eq_true
  · simpa using le_trans
  · simpa using le_total a b

/-- Binding files depend neither on other entries nor on the order of the entries. -/
theorem dartFiles_congr {excluded : List String} {entries entries' : List (RawText × Kind)}
    (hn : entries.Pairwise fun e e' => e.1 ≠ e'.1) (hn' : entries'.Pairwise fun e e' => e.1 ≠ e'.1)
    (h : ∀ name, name.shown ∉ excluded → ((name, .file) ∈ entries ↔ (name, .file) ∈ entries')) :
    dartFiles excluded entries = dartFiles excluded entries' := by
  have hnames : (bindingNames excluded entries).Perm (bindingNames excluded entries') := by
    refine (List.perm_ext_iff_of_nodup (nodup_bindingNames hn) (nodup_bindingNames hn')).mpr fun name => ?_
    rw [mem_bindingNames_iff, mem_bindingNames_iff]
    exact and_congr_left fun hkept => h name hkept.2
  refine List.Perm.eq_of_pairwise (fun _ _ _ _ => le_antisymm) (sorted_dartFiles _ _) (sorted_dartFiles _ _) ?_
  rw [dartFiles_eq, dartFiles_eq]
  exact ((List.mergeSort_perm _ _).trans (hnames.map _)).trans (List.mergeSort_perm _ _).symm

/-- **What an aggregator exports** under its own name: by their names, each binding file of a directory once but itself
and one that is never exported, in the order of the names as they are shown. -/
structure Disk.Exports (d : Disk) (dir : Place) (own : String) (names : List RawText) : Prop where
  nodup : names.Nodup
  mem_iff : ∀ name, name ∈ names ↔ (∃ c, d.entryAt (dir ++ [name]) = some (.file c)) ∧
    endsWith ".dart" name.shown = true ∧
    name.shown ≠ own ∧ name.shown ≠ "barrel.dart"
  sorted : (names.map RawText.shown).Pairwise (· ≤ ·)

namespace Disk.Exports

variable {d : Disk} {dir : Place} {own : String} {names : List RawText} (h : d.Exports dir own names)

include h

theorem strict (hnodup : (names.map RawText.shown).Nodup) : (names.map RawText.shown).Pairwise (· < ·) :=
  h.sorted.imp₂ (fun _ _ => lt_of_le_of_ne) hnodup

theorem nodup_shown (hstrings : ∀ n ∈ names, n.string?.isSome) : (names.map RawText.shown).Nodup := by
  refine h.nodup.map_on fun n hn n' hn' hshown => ?_
  obtain ⟨s, hs⟩ := Option.isSome_iff_exists.mp (hstrings n hn)
  obtain ⟨s', hs'⟩ := Option.isSome_iff_exists.mp (hstrings n' hn')
  obtain rfl := RawText.string?_eq_some_iff.mp hs
  obtain rfl := RawText.string?_eq_some_iff.mp hs'
  rw [RawText.shown_ofString, RawText.shown_ofString] at hshown
  rw [hshown]

end Disk.Exports

/-- **The files that an aggregator exports** are those of its directory. -/
theorem exists_exports {d : Disk} (hn : d.entries.keys.Nodup) (dir : Place) (name : String) :
    ∃ names, d.Exports dir (aggregatorName name) names ∧ exportedFiles name (d.kinds dir) =
      names.map RawText.shown := by
  have hsort := List.map_mergeSort (r := fun a b => decide (RawText.shown a ≤ RawText.shown b))
    (s := fun s t => decide (s ≤ t)) (f := RawText.shown)
    (l := bindingNames ["barrel.dart", aggregatorName name] (d.kinds dir)) fun _ _ _ _ => rfl
  rw [← dartFiles_eq] at hsort
  refine ⟨_, ⟨?_, fun file => ?_, ?_⟩, hsort.symm⟩
  · exact (List.mergeSort_perm _ _).nodup_iff.mpr (nodup_bindingNames (pairwise_kinds hn dir))
  · have hfile : (d.entryAt (dir ++ [file])).map kindOf = some .file ↔
        ∃ c, d.entryAt (dir ++ [file]) = some (.file c) := by
      cases d.entryAt (dir ++ [file]) with
      | none => simp
      | some e => cases e <;> simp [kindOf]
    rw [List.mem_mergeSort, mem_bindingNames_iff, mem_kinds_iff hn, hfile]
    simp only [List.mem_cons, List.not_mem_nil, or_false, not_or]
    tauto
  · rw [hsort]
    exact sorted_dartFiles _ _

/-! ## Folders with room -/

/-- A path leads to a directory in which a file can be written: nothing but a file stands under its name, and neither
the name nor the path of the file is too long. -/
structure Disk.TakesFile (d : Disk) (folder : Path) (dir : Place) (file : RawText) : Prop where
  isDirectory : d.resolve true folder = .ok (.entry dir .directory)
  room : ∀ e, d.entryAt (dir ++ [file]) = some e → kindOf e = .file
  nameSize : file.size ≤ 255
  pathSize : (folder.join file).text.size < 4096

/-- A folder takes a file also when one has been written in its place. -/
theorem Disk.TakesFile.put {d : Disk} {folder : Path} {dir : Place} {file : RawText} (h : d.TakesFile folder dir file)
    (c : Content) : (d.put (dir ++ [file]) (.file c)).TakesFile folder dir file := by
  have hroot : dir ++ [file] ≠ [] := by simp
  have hgrows : d.Grows (d.put (dir ++ [file]) (.file c)) := by
    refine grows_put hroot (fun _ he => by cases he) fun e he => ?_
    cases e with
    | file c' => exact .file c' c
    | _ => cases h.room _ he
  refine ⟨hgrows.resolve_directory h.isDirectory, fun e he => ?_, h.nameSize, h.pathSize⟩
  rw [entryAt_put d _ _ _ hroot, if_pos rfl] at he
  cases he
  rfl

/-- A folder takes a file that can be written there, if its name does not stand for a link. -/
theorem Disk.TakesFile.of_write {d d' : Disk} {folder : Path} {dir : Place} {file : RawText} {c : Content}
    (hdir : d.resolve true folder = .ok (.entry dir .directory)) (hfile : Path.IsName file)
    (hlink : ∀ target, d.entryAt (dir ++ [file]) ≠ some (.link target)) (h : d.write (folder.join file) c = .ok d') :
    d.TakesFile folder dir file := by
  obtain ⟨t, place, hresolve, htakes, _⟩ := exists_put_of_write h
  have hfollowed := isFollowed_of_resolve hresolve
  obtain ⟨left, hleft⟩ := exists_followLinks_join hdir hfile.2.2.2 hfollowed
  obtain ⟨hleaves, hup⟩ := not_step_of_isName hfile
  rw [hleft, followLinks, follow_eq_ok_iff] at hresolve
  cases hresolve with
  | stays hstays => exact absurd hstays (Bool.eq_false_iff.mp hleaves)
  | up => exact absurd rfl (ne_of_beq_false hup)
  | directory _ _ h =>
    -- No file can be written in the place of a directory.
    cases h
    cases htakes
  | file hdown hentry =>
    refine ⟨hdir, fun e he => ?_, hdown.short, hfollowed.short⟩
    obtain rfl := Option.some.inj (hentry.symm.trans he)
    rfl
  | free hdown hentry =>
    refine ⟨hdir, fun e he => ?_, hdown.short, hfollowed.short⟩
    cases hentry.symm.trans he
  | link _ hentry => exact absurd hentry (hlink _)
  | through _ hentry => exact absurd hentry (hlink _)

section

variable {s s' : LoggedDisk} {folder path : Path} {name : RawText} {dir : Place}

/-- The file name of an aggregator is one under which it can stand in its folder. -/
theorem isEntryName_aggregatorFile (hnamed : folder.fileName.isSome)
    (h : s.disk.TakesFile folder dir folder.aggregatorFile) :
    IsEntryName folder.aggregatorFile := by
  refine ⟨isName_aggregatorFile hnamed, fun hzero => ?_, h.nameSize⟩
  obtain ⟨name, hname⟩ := Option.isSome_iff_exists.mp hnamed
  obtain ⟨around, hcomponents⟩ := Path.fileName_eq_some_iff.mp hname
  have hmem : Component.normal name ∈ folder.components := by rw [hcomponents]; simp
  refine (isFollowed_of_resolve h.isDirectory).zero (Path.mem_text_of_mem_name hmem ?_)
  rw [Path.aggregatorFile, Path.shownName_eq hname, aggregatorName, RawText.ofString_append, RawText.toList_append,
    List.mem_append] at hzero
  have hshown := (RawText.ofNat_mem_ofString (c := Char.ofNat 0) (by decide) _).mp (hzero.resolve_right (by decide))
  exact RawText.mem_of_mem_shown hshown (by decide)

/-- What is listed besides the aggregator stays when the aggregator is written, and so do the exports. -/
theorem exportedFiles_put {d : Disk} (hn : d.entries.keys.Nodup) (dir : Place) (name : String) (c : Content) :
    exportedFiles name ((d.put (dir ++ [ofString (aggregatorName name)]) (.file c)).kinds dir) =
      exportedFiles name (d.kinds dir) := by
  have hn' : (d.put (dir ++ [ofString (aggregatorName name)]) (.file c)).entries.keys.Nodup :=
    Ledger.nodup_keys_put _ _ hn
  refine dartFiles_congr (pairwise_kinds hn' dir) (pairwise_kinds hn dir) fun file hfile => ?_
  rw [mem_kinds_iff hn', mem_kinds_iff hn, entryAt_put _ _ _ _ (by simp), if_neg]
  intro heq
  obtain rfl := List.singleton_inj.mp (List.append_inj' heq rfl).2
  exact hfile (by simp [RawText.shown_ofString])

/-- **Writing an aggregator** into a directory is one write, from what the directory holds. -/
theorem ends_writeFolderAggregator_iff_write (hnamed : folder.fileName.isSome)
    (hdir : s.disk.resolve true folder = .ok (.entry dir .directory)) : (writeFolderAggregator folder).Ends s path s' ↔
      path = folder.aggregator ∧
        ∃ d, s.disk.write folder.aggregator (.text (folderText folder (s.disk.kinds dir))) = .ok d ∧
          s' = { s with disk := d } := by
  have hlist : ∀ entries, s.disk.list folder = .ok entries ↔ entries = s.disk.kinds dir := by
    intro entries
    rw [list_eq_ok_iff, hdir]
    simp
  simp only [ends_writeFolderAggregator_iff, hlist, hnamed, true_and, exists_eq_left, Path.aggregator,
    ends_writeFile_join_iff hdir (isName_aggregatorFile hnamed)]

/-- A state with the aggregator of a folder written into it. -/
def LoggedDisk.aggregated (s : LoggedDisk) (dir : Place) (folder : Path) : LoggedDisk :=
  { s with
    disk := s.disk.put (dir ++ [ofString folder.aggregatorFile])
      (.file (.text (folderText folder (s.disk.kinds dir)))) }

/-- **Writing the aggregator** into a folder with room for it puts it there. -/
theorem ends_writeFolderAggregator (hnamed : folder.fileName.isSome)
    (h : s.disk.TakesFile folder dir folder.aggregatorFile) :
    (writeFolderAggregator folder).Ends s folder.aggregator (s.aggregated dir folder) :=
  (ends_writeFolderAggregator_iff_write hnamed h.isDirectory).mpr
    ⟨rfl, _, write_join h.isDirectory (isEntryName_aggregatorFile hnamed h) h.pathSize h.room _, rfl⟩

/-- **Where an aggregator can be written**: in the folders with room for it, if its name does not stand for a link. -/
theorem exists_ends_writeFolderAggregator_iff (hnamed : folder.fileName.isSome)
    (hdir : s.disk.resolve true folder = .ok (.entry dir .directory))
    (hlink : ∀ target, s.disk.entryAt (dir ++ [ofString folder.aggregatorFile]) ≠ some (.link target)) :
    (∃ path s', (writeFolderAggregator folder).Ends s path s') ↔ s.disk.TakesFile folder dir folder.aggregatorFile := by
  constructor
  · rintro ⟨path, s', hends⟩
    obtain ⟨_, d, hwrite, _⟩ := (ends_writeFolderAggregator_iff_write hnamed hdir).mp hends
    exact .of_write hdir (isName_aggregatorFile hnamed) hlink hwrite
  · exact fun h => ⟨_, _, ends_writeFolderAggregator hnamed h⟩

/-- **Writing the aggregator over another file** in its place leads to the same tree. -/
theorem ends_writeFolderAggregator_put (hnamed : folder.fileName.isSome) (hn : s.disk.entries.keys.Nodup)
    (h : s.disk.TakesFile folder dir folder.aggregatorFile) (c : Content) :
    (writeFolderAggregator folder).Ends
      { s with disk := s.disk.put (dir ++ [ofString folder.aggregatorFile]) (.file c) }
      folder.aggregator (s.aggregated dir folder) := by
  let t : LoggedDisk := { s with disk := s.disk.put (dir ++ [ofString folder.aggregatorFile]) (.file c) }
  have hfiles : exportedFiles folder.shownName (t.disk.kinds dir) = exportedFiles folder.shownName (s.disk.kinds dir) :=
    exportedFiles_put hn dir folder.shownName c
  have htext : t.aggregated dir folder = s.aggregated dir folder := by
    unfold LoggedDisk.aggregated folderText
    rw [hfiles]
    exact congrArg (fun entries => (⟨⟨entries, s.disk.workingDirectory⟩, s.events⟩ : LoggedDisk)) (Ledger.put_put ..)
  rw [← htext]
  exact ends_writeFolderAggregator hnamed (h.put c)

/-- **The aggregator of a folder** is exact and stable. It exports each binding file of the folder once, in the order of
the names as they are shown; the order is strict when no two names are shown alike, and names that spell strings are
not. It is written to the file that its path leads to, and nothing else changes.

If its name does not stand for a link, that file is the one in the folder, it can be written exactly when the folder has
room for it, and writing it again or over another file in its place leads to the same tree. -/
theorem writeFolderAggregator_exact (hname : folder.fileName = some name) (hn : s.disk.entries.keys.Nodup)
    (hdir : s.disk.resolve true folder = .ok (.entry dir .directory)) :
    folder.aggregatorFile = name.shown ++ ".dart" ∧ ∃ (names : List RawText) (text : String),
      s.disk.Exports dir folder.aggregatorFile names ∧
      ((names.map RawText.shown).Nodup → (names.map RawText.shown).Pairwise (· < ·)) ∧
      ((∀ n ∈ names, n.string?.isSome) → (names.map RawText.shown).Nodup) ∧
      text = "// Library file for " ++ name.shown ++ "\n" ++
        listed "\n" (names.map fun n => "export './" ++ n.shown ++ "';") ++ "\n" ∧
      (∀ path s', (writeFolderAggregator folder).Ends s path s' → path = folder.join folder.aggregatorFile ∧
        s'.disk.read path = .ok text ∧ ∃ place, s'.disk.fileAt? path = some place ∧
          s'.disk.entryAt place = some (.file (.text text)) ∧ ∀ q, q ≠ place → s'.disk.entryAt q = s.disk.entryAt q) ∧
      ((∀ target, s.disk.entryAt (dir ++ [ofString folder.aggregatorFile]) ≠ some (.link target)) →
        ((∃ path s', (writeFolderAggregator folder).Ends s path s') ↔
          s.disk.TakesFile folder dir folder.aggregatorFile) ∧
        (s.disk.TakesFile folder dir folder.aggregatorFile → ∃ s',
          (writeFolderAggregator folder).Ends s (folder.join folder.aggregatorFile) s' ∧
          s'.disk.fileAt? (folder.join folder.aggregatorFile) = some (dir ++ [ofString folder.aggregatorFile]) ∧
          (writeFolderAggregator folder).Ends s' (folder.join folder.aggregatorFile) s' ∧
          ∀ stale : Content, (writeFolderAggregator folder).Ends
            { s with disk := s.disk.put (dir ++ [ofString folder.aggregatorFile]) (.file stale) }
            (folder.join folder.aggregatorFile) s')) := by
  have hnamed : folder.fileName.isSome := by rw [hname]; rfl
  have hshown := Path.shownName_eq hname
  obtain ⟨names, hexports, hfiles⟩ := exists_exports hn dir folder.shownName
  refine ⟨by rw [Path.aggregatorFile, hshown]; rfl, names, folderText folder (s.disk.kinds dir),
    hexports, hexports.strict,
    hexports.nodup_shown, ?_, fun path s' hends => ?_, fun hlink =>
      ⟨exists_ends_writeFolderAggregator_iff hnamed hdir hlink, fun hroom => ?_⟩⟩
  · have hstatement : exportStatement ∘ RawText.shown = fun n => "export './" ++ n.shown ++ "';" := rfl
    rw [folderText, hfiles, hshown]
    unfold folderAggregator
    rw [List.map_map, hstatement]
  · obtain ⟨rfl, d, hwrite, rfl⟩ := (ends_writeFolderAggregator_iff_write hnamed hdir).mp hends
    obtain ⟨_, place, hplace, hentry, hothers⟩ := exists_of_write hwrite
    exact ⟨rfl, read_of_fileAt? hplace hentry, place, hplace, hentry, hothers⟩
  · have hagain := ends_writeFolderAggregator_put hnamed hn hroom
    have hafter : (s.aggregated dir folder).disk.TakesFile folder dir folder.aggregatorFile := hroom.put _
    have hentry : (s.aggregated dir folder).disk.entryAt (dir ++ [ofString folder.aggregatorFile]) =
        some (.file (.text (folderText folder (s.disk.kinds dir)))) := by
      rw [LoggedDisk.aggregated, entryAt_put _ _ _ _ (by simp), if_pos rfl]
    have hresolve := resolve_join hafter.isDirectory (isEntryName_aggregatorFile hnamed hroom)
      hafter.pathSize fun target => by
      rw [hentry]
      simp
    rw [hentry] at hresolve
    have hself : (writeFolderAggregator folder).Ends (s.aggregated dir folder) folder.aggregator
      (s.aggregated dir folder) :=
      hagain (.text (folderText folder (s.disk.kinds dir)))
    exact ⟨s.aggregated dir folder, ends_writeFolderAggregator hnamed hroom,
      fileAt?_eq_some_iff.mpr ⟨_, hresolve⟩, hself,
      hagain⟩

/-- A folder behind a link, with a directory, a file that is no binding file, and an aggregator from before. -/
def toolTree : Disk where
  entries.entries := [
    (["lib"], .link ⟨"out"⟩),
    (["out"], .directory),
    (["out", "tool"], .directory),
    (["out", "tool", "saw.dart"], .file (.text "")),
    (["out", "tool", "tool.dart"], .file (.text "export './saw.dart';")),
    (["out", "tool", "nested.dart"], .directory),
    (["out", "tool", "notes.md"], .file (.bytes [255])),
    (["out", "tool", "barrel.dart"], .file (.text "")),
    (["out", "tool", "axe.dart"], .file (.text ""))]

/-- Two files are exported in order, whatever stood in the place of the aggregator. -/
theorem writeFolderAggregator_exact_tool :
    toolTree.entries.keys.Nodup ∧ toolTree.TakesFile ⟨"lib/tool/."⟩ ["out", "tool"] "tool.dart" ∧
      ∃ s', (writeFolderAggregator ⟨"lib/tool/."⟩).Ends ⟨toolTree, []⟩ ⟨"lib/tool/./tool.dart"⟩ s' ∧
        s'.disk.read ⟨"lib/tool/./tool.dart"⟩ =
          .ok "// Library file for tool\nexport './axe.dart';\nexport './saw.dart';\n" ∧
        (writeFolderAggregator ⟨"lib/tool/."⟩).Ends s' ⟨"lib/tool/./tool.dart"⟩ s' := by
  have hn : toolTree.entries.keys.Nodup := by decide
  have hroom : toolTree.TakesFile ⟨"lib/tool/."⟩ ["out", "tool"] "tool.dart" :=
    ⟨by decide +kernel, by decide, by decide, by decide⟩
  have hname : Path.fileName ⟨"lib/tool/."⟩ = some (ofString "tool") := by decide +kernel
  have hfile : Path.aggregatorFile ⟨"lib/tool/."⟩ = "tool.dart" := by decide +kernel
  have hjoin : Path.join ⟨"lib/tool/."⟩ "tool.dart" = ⟨"lib/tool/./tool.dart"⟩ := by decide +kernel
  obtain ⟨_, names, text, hexports, _, _, rfl, halways, hplain⟩ :=
    writeFolderAggregator_exact (s := ⟨toolTree, []⟩) hname hn hroom.isDirectory
  rw [hfile] at hexports halways hplain
  rw [hjoin] at halways hplain
  have hlink : ∀ target, toolTree.entryAt ["out", "tool", "tool.dart"] ≠ some (.link target) := by
    intro target htarget
    cases hroom.room _ htarget
  obtain ⟨s', hwrite, _, hagain, _⟩ := (hplain hlink).2 hroom
  refine ⟨hn, hroom, s', hwrite, ?_, hagain⟩
  have hperm : names.Perm [ofString "axe.dart", ofString "saw.dart"] := by
    refine (List.perm_ext_iff_of_nodup hexports.nodup (by decide)).mpr fun name =>
      (hexports.mem_iff name).trans ⟨?_, ?_⟩
    · rintro ⟨⟨c, hc⟩, hending, hown, hbarrel⟩
      have hnotes : name ≠ ofString "notes.md" := by
        rintro rfl
        exact absurd hending (by decide +kernel)
      have hown' : name ≠ ofString "tool.dart" := fun h => hown (by rw [h, RawText.shown_ofString])
      have hbarrel' : name ≠ ofString "barrel.dart" := fun h => hbarrel (by rw [h, RawText.shown_ofString])
      simp only [entryAt, List.cons_append, List.nil_append, reduceCtorEq, if_false, Ledger.get?, toolTree,
        Ledger.lookup, List.cons.injEq, RawText.ofString_inj, String.reduceEq, List.nil_eq, and_self, and_false,
        List.ne_cons_self, and_true, true_and] at hc
      grind
    · intro hmem
      obtain rfl | rfl : name = ofString "axe.dart" ∨ name = ofString "saw.dart" := by simpa using hmem
      · exact ⟨⟨.text "", rfl⟩, by decide +kernel, by decide +kernel, by decide +kernel⟩
      · exact ⟨⟨.text "", rfl⟩, by decide +kernel, by decide +kernel, by decide +kernel⟩
  have hshown : names.map RawText.shown = ["axe.dart", "saw.dart"] := by
    refine List.Perm.eq_of_pairwise (fun _ _ _ _ => le_antisymm) hexports.sorted (by decide) ((hperm.map _).trans ?_)
    simp [RawText.shown_ofString]
  have hstatements : names.map (fun n => "export './" ++ n.shown ++ "';") =
      ["export './axe.dart';", "export './saw.dart';"] := by
    have hmap : (fun n : RawText => "export './" ++ n.shown ++ "';") = exportStatement ∘ RawText.shown := rfl
    rw [hmap, ← List.map_map, hshown]
    decide
  rw [(halways _ _ hwrite).2.1, hstatements, RawText.shown_ofString]
  decide

/-- A folder with a link in the place of its aggregator, and with two files whose names spell no strings. -/
def linkedTree : Disk where
  entries.entries := [
    (["out"], .directory),
    (["out", "notes.txt"], .file (.text "")),
    (["out", "tool"], .directory),
    (["out", "tool", .ofList (0xfe :: (ofString ".dart").toList)], .file (.text "")),
    (["out", "tool", .ofList (0xff :: (ofString ".dart").toList)], .file (.text "")),
    (["out", "tool", "tool.dart"], .link ⟨"../notes.txt"⟩)]

/-- **An inexact aggregator.** A file outside of the folder is overwritten through the link, and it names two files
alike. -/
theorem writeFolderAggregator_inexact :
    linkedTree.IsTree ∧ linkedTree.entryAt ["out", "notes.txt"] = some (.file (.text "")) ∧
      ∃ s', (writeFolderAggregator ⟨"out/tool"⟩).Ends ⟨linkedTree, []⟩ ⟨"out/tool/tool.dart"⟩ s' ∧
        s'.disk.entryAt ["out", "notes.txt"] =
          some (.file (.text "// Library file for tool\nexport './�.dart';\nexport './�.dart';\n")) := by
  have hdir : linkedTree.resolve true ⟨"out/tool"⟩ = .ok (.entry ["out", "tool"] .directory) := by decide +kernel
  have hjoin : Path.aggregator ⟨"out/tool"⟩ = ⟨"out/tool/tool.dart"⟩ := by decide +kernel
  have hwrite : ∀ c, linkedTree.write ⟨"out/tool/tool.dart"⟩ c = .ok (linkedTree.put ["out", "notes.txt"] (.file c)) :=
    fun _ => rfl
  have hnames : (bindingNames ["barrel.dart", "tool.dart"] (linkedTree.kinds ["out", "tool"])).map RawText.shown =
      ["�.dart", "�.dart"] := by decide +kernel
  have htext : folderText ⟨"out/tool"⟩ (linkedTree.kinds ["out", "tool"]) =
      "// Library file for tool\nexport './�.dart';\nexport './�.dart';\n" := by
    have hname : Path.shownName ⟨"out/tool"⟩ = "tool" := by decide +kernel
    have hown : aggregatorName "tool" = "tool.dart" := by decide
    rw [folderText, hname, exportedFiles, hown, dartFiles_eq, hnames, List.mergeSort_of_pairwise (by decide)]
    decide
  refine ⟨by decide, by decide, _, (ends_writeFolderAggregator_iff_write (by decide +kernel) hdir).mpr
    ⟨hjoin.symm, _, by rw [hjoin, htext, hwrite], rfl⟩, ?_⟩
  rw [entryAt_put _ _ _ _ (by simp), if_pos rfl]

end

end InteropBindings
