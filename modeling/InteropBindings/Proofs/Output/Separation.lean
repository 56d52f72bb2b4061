import InteropBindings.Proofs.Output.PlainPaths

/-!
# Paths that tell symbols apart

The path of a binding is put together from the output root, some folders and a file name. Where no folder holds a slash,
none of the steps on the way merges two symbols: the text can be cut at its slashes again
(`OutputLayout.append_joined_inj`).

- Inside namespaces the folders are their lowercase names.
- Outside of them the folders are the names in the path of the source file below the input root as they are shown, the
  last one without its `.d.ts` (`OutputLayout.sourceFolder_foldl_join`). Only one ending is taken away, so `a.d.ts` and
  `a.d.ts.d.ts` keep apart.

Either way two paths are equal exactly when the folders and the lowercase names of the symbols are
(`OutputLayout.outputPath_eq_iff`). Names that are no strings may be shown alike, and the files in such folders share
their paths (`OutputLayout.outputPath_not_separating`).
-/

namespace InteropBindings.OutputLayout

open Text InteropBindings.Path
open RawText (ofString shown)

variable {layout : OutputLayout} {name name' : String}

/-! ## Folders and a file name -/

theorem fileName_inj : fileName name = fileName name' ↔ lower name = lower name' :=
  String.append_left_inj ".dart"

/-- **The text behind the output root** tells folders and names apart. -/
theorem append_joined_inj (root : String) {folders folders' : List String} (h : ∀ n ∈ folders, '/' ∉ n.toList)
    (h' : ∀ n ∈ folders', '/' ∉ n.toList) (hname : IsSlashFree name) (hname' : IsSlashFree name') :
    root ++ joined '/' (folders ++ [fileName name]) = root ++ joined '/' (folders' ++ [fileName name']) ↔
      folders = folders' ∧ lower name = lower name' := by
  have hslash : ∀ {folders : List String} {name : String}, (∀ n ∈ folders, '/' ∉ n.toList) → IsSlashFree name →
      ∀ n ∈ folders ++ [fileName name], '/' ∉ n.toList := by
    intro folders name hfolders hname n hn
    rcases List.mem_append.mp hn with hn | hn
    · exact hfolders n hn
    · rw [List.mem_singleton.mp hn]
      exact (isSlashFree_fileName hname).1
  rw [String.append_right_inj, joined_inj (by simp) (by simp) (hslash h hname) (hslash h' hname'),
    List.append_singleton_inj, fileName_inj]

theorem isStep_append_fileName {folders : List String} (h : ∀ s ∈ folders, IsStep s) (hname : IsSlashFree name) :
    ∀ s ∈ folders ++ [fileName name], IsStep s := by
  intro s hs
  rcases List.mem_append.mp hs with hs | hs
  · exact h s hs
  · rw [List.mem_singleton.mp hs]
    exact (isName_fileName hname).1.isStep

/-- Behind the output root, paths of steps that are the same path are written alike. -/
theorem same_append_joined_iff (root : Path) {steps steps' : List String} (h : ∀ s ∈ steps, IsStep s)
    (h' : ∀ s ∈ steps', IsStep s) :
    same ⟨(slashed ⟨root.front⟩ ++ joined '/' steps : String)⟩
      ⟨(slashed ⟨root.front⟩ ++ joined '/' steps' : String)⟩ = true ↔
      slashed ⟨root.front⟩ ++ joined '/' steps = slashed ⟨root.front⟩ ++ joined '/' steps' := by
  constructor
  · intro hsame
    have hcomponents := beq_iff_eq.mp hsame
    rw [components_slashed_front_append_steps h, components_slashed_front_append_steps h',
      List.append_cancel_left_eq] at hcomponents
    rw [(List.map_inj_right fun _ _ => RawText.ofString_inj.mp).mp
      ((List.map_inj_right fun _ _ => stepOf_inj).mp hcomponents)]
  · intro htext
    rw [htext]
    exact beq_self_eq_true _

/-! ## Files below the input root -/

/-- A declaration file that is reached from the input root through names, and has a name apart from its ending. -/
def IsSourceBelow (layout : OutputLayout) (source : Path) : Prop :=
  ∃ folders : List RawText, ∃ stem : RawText, stem ≠ "" ∧ (∀ n ∈ folders ++ [stem ++ ".d.ts"], IsPlainName n) ∧
    source = (folders ++ [stem ++ ".d.ts"]).foldl join layout.inputRoot

section

variable {folders : List RawText} {stem : RawText} (hstem : stem ≠ "")
  (h : ∀ n ∈ folders ++ [stem ++ ".d.ts"], IsPlainName n)

include hstem h in
/-- The name of the file is free of slashes without its ending, too. -/
theorem isSlashFree_of_stem : ∀ s ∈ (folders ++ [stem]).map shown, s ≠ "" ∧ IsSlashFree s := by
  refine List.forall_mem_map.mpr fun n hn => ?_
  rcases List.mem_append.mp hn with hn | hn
  · obtain ⟨hempty, -, -, hfree⟩ := isPlainName_ofString.mp (h n (List.mem_append_left _ hn)).shown
    exact ⟨hempty, hfree⟩
  · obtain rfl := List.mem_singleton.mp hn
    have hlast : IsPlainName (n ++ ".d.ts") := h _ (List.mem_append_right _ List.mem_cons_self)
    have hfree := (isPlainName_ofString.mp hlast.shown).2.2.2
    rw [RawText.shown_append_ofString, IsSlashFree, String.toList_append, List.mem_append, List.mem_append, not_or,
      not_or] at hfree
    exact ⟨mt RawText.shown_eq_empty_iff.mp hstem, hfree.1.1, hfree.2.1⟩

include hstem h in
/-- Every folder is a step on the way, unless the name of the file without its ending is a point. -/
theorem isStep_of_stem
    (hpoint : ((folders ++ [stem ++ ".d.ts"]).foldl join layout.inputRoot).fileName ≠ some (ofString "..d.ts")) :
    ∀ s ∈ (folders ++ [stem]).map shown, IsStep s := by
  intro s hs
  obtain ⟨hne, hfree⟩ := isSlashFree_of_stem hstem h s hs
  refine ⟨mt RawText.ofString_inj.mp hne, ?_, mt (RawText.slash_mem_ofString s).mp hfree.1⟩
  intro hs'
  obtain ⟨n, hn, hshown⟩ := List.mem_map.mp hs
  have hn' : n = "." := (RawText.shown_eq_iff_of_ascii (by decide)).mp (hshown.trans (RawText.ofString_inj.mp hs'))
  rcases List.mem_append.mp hn with hn | hn
  · exact (h n (List.mem_append_left _ hn)).1.2.1 hn'
  · refine hpoint (fileName_eq_some_iff.mpr ⟨layout.inputRoot.components ++ folders.map .normal, ?_⟩)
    rw [List.mem_singleton.mp hn] at hn'
    rw [Path.components_foldl_join fun n hn => (h n hn).1, hn', List.map_append, ← List.append_assoc]
    rfl

theorem map_shown_append (folders : List RawText) (stem : RawText) :
    (folders ++ [stem ++ ".d.ts"]).map shown = folders.map shown ++ [stem.shown ++ ".d.ts"] := by
  rw [List.map_append, List.map_singleton, RawText.shown_append_ofString]

include h in
/-- **The folder of a file below the input root** are its names without the ending, as they are shown. -/
theorem sourceFolder_foldl_join (layout : OutputLayout) :
    layout.sourceFolder ((folders ++ [stem ++ ".d.ts"]).foldl join layout.inputRoot) =
      joined '/' ((folders ++ [stem]).map shown) := by
  have hrelative := relativeTo?_foldl_join (by simp) (fun n hn => (h n hn).1) layout.inputRoot
  have hback : ∀ s ∈ (folders ++ [stem ++ ".d.ts"]).map shown, '\\' ∉ s.toList :=
    List.forall_mem_map.mpr fun n hn => (isPlainName_ofString.mp (h n hn).shown).2.2.2.2
  rw [sourceFolder, relativeSource, hrelative, Option.getD_some, slashed, RawText.shown_joined,
    ← RawText.shown_ofString (joined '/' _), ← slashed, slashed_of_not_mem (not_mem_joined (by decide) hback),
    map_shown_append, joined_append_append, dropEnding?_append, Option.getD_some, List.map_append, List.map_singleton]

include hstem h in
/-- **The path outside of namespaces**, for a file below the input root. -/
theorem outputPath_foldl_join (layout : OutputLayout) (hname : IsSlashFree name) :
    layout.outputPath name [] ((folders ++ [stem ++ ".d.ts"]).foldl join layout.inputRoot) =
      slashed ⟨layout.outputRoot.front⟩ ++ joined '/' ((folders ++ [stem]).map shown ++ [fileName name]) := by
  have hnames := isSlashFree_of_stem hstem h
  have hnil : (folders ++ [stem]).map shown ≠ [] := by simp
  have hne : joined '/' ((folders ++ [stem]).map shown) ≠ "" := joined_ne_empty hnil fun s hs => (hnames s hs).1
  have hne' : ofString (joined '/' ((folders ++ [stem]).map shown)) ≠ "" := mt RawText.ofString_inj.mp hne
  have hraw : ∀ a ∈ ((folders ++ [stem]).map shown).map ofString, a ≠ "" ∧ slash ∉ a.toList :=
    List.forall_mem_map.mpr fun s hs =>
      ⟨mt RawText.ofString_inj.mp (hnames s hs).1, mt (RawText.slash_mem_ofString s).mp (hnames s hs).2.1⟩
  have hfront := joined_no_slash (by simp) hraw
  rw [← RawText.ofString_joined] at hfront
  have hback : '\\' ∉ (joined '/' ((folders ++ [stem]).map shown)).toList :=
    not_mem_joined (by decide) fun s hs => (hnames s hs).2.2
  have hslash : slashed ⟨"/"⟩ = "/" := by decide
  have hfolder : layout.folder [] ((folders ++ [stem ++ ".d.ts"]).foldl join layout.inputRoot) =
      layout.outputRoot.join (joined '/' ((folders ++ [stem]).map shown)) := by
    rw [folder, List.isEmpty_nil, if_pos rfl, sourceFolder_foldl_join h]
  rw [outputPath_eq hname, hfolder, front_join hne' hfront, slashed_append_ofString, slashed_append_ofString, hslash,
    slashed_of_not_mem hback, joined_append_singleton '/' hnil, String.append_assoc, String.append_assoc,
    String.append_assoc]

end

/-- Files below the input root that are the same path are written alike. -/
theorem IsSourceBelow.eq_of_same {source source' : Path} (h : layout.IsSourceBelow source)
    (h' : layout.IsSourceBelow source') (hsame : source.same source' = true) : source = source' := by
  obtain ⟨folders, stem, -, hnames, rfl⟩ := h
  obtain ⟨folders', stem', -, hnames', rfl⟩ := h'
  rw [foldl_join_inj (fun n hn => (hnames n hn).1) (fun n hn => (hnames' n hn).1) hsame]

/-- The text of a file below the input root goes on from there. -/
theorem IsSourceBelow.text_eq {source : Path} (h : layout.IsSourceBelow source) :
    source.text = layout.inputRoot.front ++ (layout.relativeSource source).text := by
  obtain ⟨folders, stem, -, hnames, rfl⟩ := h
  have hisName : ∀ n ∈ folders ++ [stem ++ ".d.ts"], IsName n := fun n hn => (hnames n hn).1
  rw [relativeSource, relativeTo?_foldl_join (by simp) hisName, text_foldl_join (by simp) hisName]
  rfl

/-- Below the input root, what is shown alike and spells strings is the same path. -/
theorem IsSourceBelow.eq_of_shown_eq {source source' : Path} (h : layout.IsSourceBelow source)
    (h' : layout.IsSourceBelow source') (hstring : (layout.relativeSource source).text.string?.isSome)
    (hstring' : (layout.relativeSource source').text.string?.isSome) (hshown : source.text.shown = source'.text.shown) :
    source = source' := by
  obtain ⟨s, hs⟩ := Option.isSome_iff_exists.mp hstring
  obtain ⟨s', hs'⟩ := Option.isSome_iff_exists.mp hstring'
  have htext := h.text_eq
  have htext' := h'.text_eq
  rw [RawText.string?_eq_some_iff.mp hs] at htext
  rw [RawText.string?_eq_some_iff.mp hs'] at htext'
  rw [htext, htext', RawText.shown_append_ofString, RawText.shown_append_ofString, String.append_right_inj] at hshown
  exact congrArg Path.mk (by rw [htext, htext', hshown])

/-! ## The paths of two symbols -/

/-- Symbols inside plain namespaces. -/
theorem outputPath_eq_iff_within {around around' : NamespacePath} (hne : around ≠ []) (hne' : around' ≠ [])
    (h : ∀ s ∈ around, IsPlainName s) (h' : ∀ s ∈ around', IsPlainName s) (hname : IsSlashFree name)
    (hname' : IsSlashFree name') (source source' : Path) :
    (layout.outputPath name around source = layout.outputPath name' around' source' ↔
      around.map lower = around'.map lower ∧ lower name = lower name') ∧
    (same ⟨layout.outputPath name around source⟩ ⟨layout.outputPath name' around' source'⟩ = true ↔
      layout.outputPath name around source = layout.outputPath name' around' source') := by
  have hslash : ∀ {around : NamespacePath}, (∀ s ∈ around, IsPlainName s) → ∀ n ∈ around.map lower, '/' ∉ n.toList :=
    fun h => List.forall_mem_map.mpr fun s hs => (isPlainName_ofString.mp (h s hs).lower).2.2.2.1
  have hsteps : ∀ {around : NamespacePath}, (∀ s ∈ around, IsPlainName s) → ∀ s ∈ around.map lower, IsStep s :=
    fun h => List.forall_mem_map.mpr fun s hs => (h s hs).lower.1.isStep
  rw [outputPath_of_isPlainName hne h hname, outputPath_of_isPlainName hne' h' hname']
  exact ⟨append_joined_inj _ (hslash h) (hslash h') hname hname',
    same_append_joined_iff _ (isStep_append_fileName (hsteps h) hname) (isStep_append_fileName (hsteps h') hname')⟩

/-- Symbols outside of namespaces. -/
theorem outputPath_eq_iff_outside {source source' : Path} (h : layout.IsSourceBelow source)
    (h' : layout.IsSourceBelow source') (hname : IsSlashFree name) (hname' : IsSlashFree name') :
    layout.outputPath name [] source = layout.outputPath name' [] source' ↔
      source.text.shown = source'.text.shown ∧ lower name = lower name' := by
  obtain ⟨folders, stem, hstem, hnames, rfl⟩ := h
  obtain ⟨folders', stem', hstem', hnames', rfl⟩ := h'
  have hisName : ∀ n ∈ folders ++ [stem ++ ".d.ts"], IsName n := fun n hn => (hnames n hn).1
  have hisName' : ∀ n ∈ folders' ++ [stem' ++ ".d.ts"], IsName n := fun n hn => (hnames' n hn).1
  have hslash : ∀ {names : List RawText}, (∀ n ∈ names, IsName n) → ∀ s ∈ names.map shown, '/' ∉ s.toList :=
    fun h => List.forall_mem_map.mpr fun n hn => (isName_ofString.mp (h n hn).shown).2.2.2
  rw [outputPath_foldl_join hstem hnames layout hname, outputPath_foldl_join hstem' hnames' layout hname',
    append_joined_inj _ (fun s hs => (isSlashFree_of_stem hstem hnames s hs).2.1)
      (fun s hs => (isSlashFree_of_stem hstem' hnames' s hs).2.1) hname hname',
    text_foldl_join (by simp) hisName, text_foldl_join (by simp) hisName', shown_front_append, shown_front_append,
    String.append_right_inj, RawText.shown_joined, RawText.shown_joined,
    joined_inj (by simp) (by simp) (hslash hisName) (hslash hisName'), map_shown_append, map_shown_append,
    List.append_singleton_inj, String.append_left_inj, List.map_append, List.map_append, List.map_singleton,
    List.map_singleton, List.append_singleton_inj]

/-- Outside of namespaces, paths that are the same path are written alike, unless a file has a point for its name. -/
theorem same_outputPath_iff_outside {source source' : Path} (h : layout.IsSourceBelow source)
    (h' : layout.IsSourceBelow source') (hpoint : source.fileName ≠ some (ofString "..d.ts"))
    (hpoint' : source'.fileName ≠ some (ofString "..d.ts")) (hname : IsSlashFree name) (hname' : IsSlashFree name') :
    same ⟨layout.outputPath name [] source⟩ ⟨layout.outputPath name' [] source'⟩ = true ↔
      layout.outputPath name [] source = layout.outputPath name' [] source' := by
  obtain ⟨folders, stem, hstem, hnames, rfl⟩ := h
  obtain ⟨folders', stem', hstem', hnames', rfl⟩ := h'
  rw [outputPath_foldl_join hstem hnames layout hname, outputPath_foldl_join hstem' hnames' layout hname']
  exact same_append_joined_iff _ (isStep_append_fileName (isStep_of_stem hstem hnames hpoint) hname)
    (isStep_append_fileName (isStep_of_stem hstem' hnames' hpoint') hname')

/-- **Output paths separate symbols**, whatever the layout is.

- Inside plain namespaces two symbols share a path exactly when their namespaces and their names have the same
  lowercase, from whichever files they are.
- Outside of them, in files below the input root, they share it exactly when the paths of the files are shown alike and
  the names have the same lowercase. Where the paths below the input root are strings, they are shown alike exactly when
  they are the same path, and the same path has one spelling here.

What is the same path is also written alike, unless a file is called `..d.ts`. -/
theorem outputPath_eq_iff (layout : OutputLayout) (hname : IsSlashFree name) (hname' : IsSlashFree name') :
    (∀ around around' source source', around ≠ [] → around' ≠ [] →
      (∀ s ∈ around, IsPlainName (ofString s)) → (∀ s ∈ around', IsPlainName (ofString s)) →
      (layout.outputPath name around source = layout.outputPath name' around' source' ↔
        around.map lower = around'.map lower ∧ lower name = lower name') ∧
      (same ⟨layout.outputPath name around source⟩ ⟨layout.outputPath name' around' source'⟩ = true ↔
        layout.outputPath name around source = layout.outputPath name' around' source')) ∧
    ∀ source source', layout.IsSourceBelow source → layout.IsSourceBelow source' →
      (layout.outputPath name [] source = layout.outputPath name' [] source' ↔
        source.text.shown = source'.text.shown ∧ lower name = lower name') ∧
      ((layout.relativeSource source).text.string?.isSome → (layout.relativeSource source').text.string?.isSome →
        (source.text.shown = source'.text.shown ↔ source.same source' = true)) ∧
      (source.same source' = true ↔ source = source') ∧
      (source.fileName ≠ some (ofString "..d.ts") → source'.fileName ≠ some (ofString "..d.ts") →
        (same ⟨layout.outputPath name [] source⟩ ⟨layout.outputPath name' [] source'⟩ = true ↔
          layout.outputPath name [] source = layout.outputPath name' [] source')) := by
  refine ⟨fun around around' source source' hne hne' h h' =>
    outputPath_eq_iff_within hne hne' h h' hname hname' source source', fun source source' h h' => ?_⟩
  have hsame : source.same source' = true ↔ source = source' := by
    refine ⟨h.eq_of_same h', ?_⟩
    rintro rfl
    exact beq_self_eq_true _
  refine ⟨outputPath_eq_iff_outside h h' hname hname', fun hstring hstring' => ?_, hsame, fun hpoint hpoint' =>
    same_outputPath_iff_outside h h' hpoint hpoint' hname hname'⟩
  rw [hsame]
  refine ⟨h.eq_of_shown_eq h' hstring hstring', ?_⟩
  rintro rfl
  rfl

/-- A file whose name holds the ending twice, and one whose name without the ending leads up. -/
theorem outputPath_eq_iff_endings :
    let layout : OutputLayout := ⟨⟨"in/"⟩, ⟨"out"⟩⟩
    layout.outputPath "Tile" ["Ol", "..d"] ⟨"in/a.d.ts"⟩ = layout.outputPath "TILE" ["OL", "..D"] ⟨"b"⟩ ∧
      layout.outputPath "Tile" [] ⟨"in/a.d.ts"⟩ ≠ layout.outputPath "Tile" [] ⟨"in/a.d.ts.d.ts"⟩ ∧
      layout.outputPath "Tile" [] ⟨"in/sub/...d.ts"⟩ ≠ layout.outputPath "Tile" [] ⟨"in/...d.ts"⟩ := by
  intro layout
  have hTile : IsSlashFree "Tile" := by decide
  obtain ⟨hwithin, -⟩ := outputPath_eq_iff layout hTile (by decide : IsSlashFree "TILE")
  obtain ⟨-, houtside⟩ := outputPath_eq_iff layout hTile hTile
  have hshort : layout.IsSourceBelow ⟨"in/a.d.ts"⟩ := ⟨[], "a", by decide, by decide, by decide⟩
  have hlong : layout.IsSourceBelow ⟨"in/a.d.ts.d.ts"⟩ := ⟨[], "a.d.ts", by decide, by decide, by decide⟩
  have hinner : layout.IsSourceBelow ⟨"in/sub/...d.ts"⟩ := ⟨["sub"], "..", by decide, by decide, by decide⟩
  have houter : layout.IsSourceBelow ⟨"in/...d.ts"⟩ := ⟨[], "..", by decide, by decide, by decide⟩
  refine ⟨?_, ?_, ?_⟩
  · exact (hwithin _ _ _ _ (by simp) (by simp) (by decide) (by decide)).1.mpr (by decide +kernel)
  · rw [Ne, (houtside _ _ hshort hlong).1]
    decide +kernel
  · rw [Ne, (houtside _ _ hinner houter).1]
    decide +kernel

/-- **Paths that do not separate symbols**: folders whose names are no strings are shown alike, and behind a file that
is called `..d.ts` the folder is written with a point that does not count. -/
theorem outputPath_not_separating :
    let layout : OutputLayout := ⟨⟨"in"⟩, ⟨"out"⟩⟩
    let inFolder (b : UInt8) : Path := ⟨"in/" ++ .ofList [b] ++ "/a.d.ts"⟩
    (layout.IsSourceBelow (inFolder 0xfe) ∧ layout.IsSourceBelow (inFolder 0xff) ∧
      (inFolder 0xfe).same (inFolder 0xff) = false ∧
      layout.outputPath "Foo" [] (inFolder 0xfe) = layout.outputPath "Foo" [] (inFolder 0xff)) ∧
    layout.IsSourceBelow ⟨"in/x.d.ts"⟩ ∧ layout.IsSourceBelow ⟨"in/x/..d.ts"⟩ ∧
      same ⟨"in/x.d.ts"⟩ ⟨"in/x/..d.ts"⟩ = false ∧
      same ⟨layout.outputPath "Foo" [] ⟨"in/x.d.ts"⟩⟩ ⟨layout.outputPath "Foo" [] ⟨"in/x/..d.ts"⟩⟩ = true := by
  intro layout inFolder
  refine ⟨⟨⟨[.ofList [0xfe]], "a", by decide, by decide, by decide⟩,
    ⟨[.ofList [0xff]], "a", by decide, by decide, by decide⟩, by decide, by decide +kernel⟩,
    ⟨[], "x", by decide, by decide, by decide⟩, ⟨["x"], ".", by decide, by decide, by decide⟩, by decide,
    by decide +kernel⟩

end InteropBindings.OutputLayout
