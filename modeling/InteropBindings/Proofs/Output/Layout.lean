import InteropBindings.Output.Layout
import InteropBindings.Proofs.Path.Components
import InteropBindings.Proofs.Text.Lowercase

/-!
# Where bindings lie

The path of a binding goes on from the output root through some ways: the lowercase of each namespace, or the folder of
the source file. A way is any text, so it may lead up again or start over.

- the components of the path are those of the root, the steps of the ways, and the name of the file
  (`OutputLayout.components_outputPath`);
- a way that starts with a slash starts over, and the root does not matter any more
  (`OutputLayout.outputPath_of_absolute`);
- otherwise the path lies below the root exactly when no way leads up (`OutputLayout.outputPath_liesBelow_iff`).
-/

namespace InteropBindings

open Text InteropBindings.Path

namespace OutputLayout

variable {layout : OutputLayout} {name : String} {around : NamespacePath} {source : Path}

/-- The texts that the folder of a binding is reached through, one after the other. -/
def ways (layout : OutputLayout) (around : NamespacePath) (source : Path) : List String :=
  if around.isEmpty then [layout.sourceFolder source] else around.map lower

/-- The folder of a binding is reached from the output root through its ways. -/
theorem folder_eq_foldl :
    layout.folder around source = (layout.ways around source).foldl (fun p w => p.join w) layout.outputRoot := by
  unfold folder ways
  by_cases h : around.isEmpty = true
  · rw [if_pos h, if_pos h, List.foldl_cons, List.foldl_nil]
  · rw [if_neg h, if_neg h, List.foldl_map]

theorem isSlashFree_fileName (h : IsSlashFree name) : IsSlashFree (fileName name) := by
  rw [IsSlashFree, fileName, String.toList_append, List.mem_append, List.mem_append, not_or, not_or]
  exact ⟨⟨h.lower.1, by decide⟩, h.lower.2, by decide⟩

theorem isName_fileName (h : IsSlashFree name) : IsName (fileName name) ∧ '\\' ∉ (fileName name).toList := by
  have hslash : slash ∉ (lower name : RawText).toList := mt (RawText.slash_mem_ofString _).mp h.lower.1
  refine ⟨?_, (isSlashFree_fileName h).2⟩
  rw [fileName, RawText.ofString_append]
  exact isName_append hslash (by decide) (by decide)

/-- The path of a binding is its file name behind its folder. -/
theorem outputPath_eq (h : IsSlashFree name) :
    layout.outputPath name around source = slashed ⟨(layout.folder around source).front⟩ ++ fileName name := by
  obtain ⟨hisName, hback⟩ := isName_fileName h
  rw [outputPath, join, push_eq _ (isAbsolute_of_not_mem hisName.2.2.2), slashed_append_ofString,
    slashed_of_not_mem hback]

/-! ## Ways that go on -/

/-- Following ways that do not start over adds their steps. -/
theorem components_foldl_join {ways : List String} (hways : ∀ w ∈ ways, isAbsolute ⟨w⟩ = false) {p : Path}
    (hp : p.text ≠ "") :
    (ways.foldl (fun p w => p.join w) p).text ≠ "" ∧
      components ⟨(ways.foldl (fun p w => p.join w) p).slashed⟩ =
        components ⟨p.slashed⟩ ++ ways.flatMap fun w : String => stepsOf (slashed ⟨w⟩) := by
  induction ways generalizing p with
  | nil => exact ⟨hp, by simp⟩
  | cons w ways ih =>
    have hpush : p.join w = ⟨p.front ++ w⟩ := push_eq p (hways w List.mem_cons_self)
    have hne : (p.join w).text ≠ "" := by
      intro he
      rw [hpush, RawText.append_eq_empty_iff] at he
      exact front_ne_empty hp he.1
    obtain ⟨htext, hcomponents⟩ := ih (fun v hv => hways v (List.mem_cons_of_mem _ hv)) hne
    refine ⟨htext, ?_⟩
    rw [List.foldl_cons, hcomponents, hpush, components_slashed_front_append hp, List.flatMap_cons, List.append_assoc]

/-- **The components of the path of a binding.** -/
theorem components_outputPath (hname : IsIdentifier name) (hroot : layout.outputRoot.text ≠ "")
    (hways : ∀ w ∈ layout.ways around source, isAbsolute ⟨w⟩ = false) :
    components ⟨layout.outputPath name around source⟩ = components ⟨layout.outputRoot.slashed⟩ ++
      (layout.ways around source).flatMap (fun w : String => stepsOf (slashed ⟨w⟩)) ++ [.normal (fileName name)] := by
  obtain ⟨hfolder, hcomponents⟩ := components_foldl_join hways hroot
  obtain ⟨hisName, hback⟩ := isName_fileName hname.isUnmarked.isSlashFree
  rw [outputPath_eq hname.isUnmarked.isSlashFree, ← slashed_of_not_mem hback, ← slashed_append_ofString,
    folder_eq_foldl, components_slashed_front_append hfolder, hcomponents, slashed_of_not_mem hback, hisName.stepsOf]

/-! ## Ways that start over -/

/-- Behind a way that starts over it does not matter where the ways started. -/
theorem foldl_join_of_absolute {ways : List String} (h : ∃ w ∈ ways, isAbsolute ⟨w⟩ = true) (p q : Path) :
    ways.foldl (fun p w => p.join w) p = ways.foldl (fun p w => p.join w) q := by
  induction ways generalizing p q with
  | nil => simp at h
  | cons w ways ih =>
    rw [List.foldl_cons, List.foldl_cons]
    by_cases hrest : ∃ v ∈ ways, isAbsolute ⟨v⟩ = true
    · exact ih hrest _ _
    · obtain ⟨v, hv, habsolute⟩ := h
      rcases List.mem_cons.mp hv with rfl | hv
      · rw [join, join, push, push, if_pos habsolute, if_pos habsolute]
      · exact absurd ⟨v, hv, habsolute⟩ hrest

/-- **A way that starts over leaves the output root.** -/
theorem outputPath_of_absolute (h : ∃ w ∈ layout.ways around source, isAbsolute ⟨w⟩ = true) (root : Path) :
    outputPath { layout with outputRoot := root } name around source = layout.outputPath name around source := by
  rw [outputPath, outputPath, folder_eq_foldl, folder_eq_foldl]
  have hways : ways { layout with outputRoot := root } around source = layout.ways around source := rfl
  rw [hways, foldl_join_of_absolute h root layout.outputRoot]

/-! ## Below the output root -/

/-- **Where a binding lies.** Below an output root that is shown as it is written, a path whose ways do not start over
lies exactly when no way leads up, with backslashes counting as slashes. Where a way starts over, the path is the same
whatever the output root is. -/
theorem outputPath_liesBelow_iff (layout : OutputLayout) {name : String} (hname : IsIdentifier name)
    (around : NamespacePath) (source : Path) (hroot : layout.outputRoot.text ≠ "")
    (hshown : layout.outputRoot.slashed = layout.outputRoot.text) :
    ((∀ w ∈ layout.ways around source, isAbsolute ⟨w⟩ = false) →
      (LiesBelow layout.outputRoot ⟨layout.outputPath name around source⟩ ↔
        ∀ w ∈ layout.ways around source, ".." ∉ segments '/' (slashed ⟨w⟩))) ∧
    ((∃ w ∈ layout.ways around source, isAbsolute ⟨w⟩ = true) →
      ∀ root, outputPath { layout with outputRoot := root } name around source =
        layout.outputPath name around source) := by
  refine ⟨fun hways => ?_, fun h root => outputPath_of_absolute h root⟩
  have hsteps : (∀ w ∈ layout.ways around source, ".." ∉ segments '/' (slashed ⟨w⟩)) ↔
      Component.parent ∉ (layout.ways around source).flatMap fun w : String => stepsOf (slashed ⟨w⟩) := by
    simp only [List.mem_flatMap, parent_mem_stepsOf_iff, RawText.mem_segments_ofString, not_exists, not_and]
  have hroot' : (⟨layout.outputRoot.slashed⟩ : Path) = layout.outputRoot := congrArg Path.mk hshown
  rw [hsteps, LiesBelow, components_outputPath hname hroot hways, hroot']
  constructor
  · rintro ⟨names, hnames⟩ hparent
    rw [List.append_assoc, List.append_cancel_left_eq] at hnames
    obtain ⟨n, _, hn⟩ := List.mem_map.mp (hnames ▸ List.mem_append_left _ hparent)
    cases hn
  · intro hparent
    have hnormal : ∀ c ∈ (layout.ways around source).flatMap fun w : String => stepsOf (slashed ⟨w⟩),
        (nameOf? c).isSome := by
      intro c hc
      obtain ⟨w, _, hcw⟩ := List.mem_flatMap.mp hc
      rcases eq_parent_or_normal_of_mem_stepsOf hcw with rfl | ⟨n, rfl⟩
      · exact absurd hc hparent
      · rfl
    obtain ⟨names, hnames⟩ := exists_map_normal hnormal
    exact ⟨names ++ [RawText.ofString (fileName name)], by rw [hnames, List.append_assoc, List.map_append]; rfl⟩

/-- Slashes and backslashes inside a namespace are no harm. -/
theorem outputPath_liesBelow_iff_slashes :
    let layout : OutputLayout := ⟨⟨"in"⟩, ⟨"out"⟩⟩
    LiesBelow layout.outputRoot ⟨layout.outputPath "Foo" ["ol/Layer\\x", "a.b"] ⟨"in/a.d.ts"⟩⟩ ∧
      layout.outputPath "Foo" ["ol/Layer\\x", "a.b"] ⟨"in/a.d.ts"⟩ = "out/ol/layer/x/a.b/foo.dart" ∧
      ∀ root, outputPath { layout with outputRoot := root } "Foo" ["ol", "/Etc"] ⟨"in/a.d.ts"⟩ = "/etc/foo.dart" := by
  intro layout
  have hname : IsIdentifier "Foo" := by decide +kernel
  have hroot : layout.outputRoot.text ≠ "" := by decide
  have hshown : layout.outputRoot.slashed = layout.outputRoot.text := by decide
  obtain ⟨hbelow, _⟩ := outputPath_liesBelow_iff layout hname ["ol/Layer\\x", "a.b"] ⟨"in/a.d.ts"⟩ hroot hshown
  obtain ⟨_, habsolute⟩ := outputPath_liesBelow_iff layout hname ["ol", "/Etc"] ⟨"in/a.d.ts"⟩ hroot hshown
  refine ⟨(hbelow (by decide +kernel)).mpr (by decide +kernel), by decide +kernel, fun root => ?_⟩
  rw [habsolute (by decide +kernel) root]
  decide +kernel

/-- **Bindings that leave the output root**: by a namespace that starts with a slash, by one that leads up, and by the
name of a source file. -/
theorem not_liesBelow_outputPath :
    let layout : OutputLayout := ⟨⟨"in"⟩, ⟨"out"⟩⟩
    ¬ LiesBelow layout.outputRoot ⟨layout.outputPath "Foo" ["/etc"] ⟨"in/a.d.ts"⟩⟩ ∧
      ¬ LiesBelow layout.outputRoot ⟨layout.outputPath "Foo" [".."] ⟨"in/a.d.ts"⟩⟩ ∧
      ¬ LiesBelow layout.outputRoot ⟨layout.outputPath "Foo" [] ⟨"in/...d.ts"⟩⟩ := by
  decide +kernel

end OutputLayout

end InteropBindings
