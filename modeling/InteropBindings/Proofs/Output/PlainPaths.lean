import InteropBindings.Proofs.Output.Layout
import InteropBindings.Proofs.Path.Descent

/-!
# Paths that are spelled in one way

A way that consists of names alone adds these names to the path of a binding, and nothing of how it was written. So
where all ways are plain, the text of the path is the output root, the names and the file name with slashes in between
(`OutputLayout.pathOf_of_isPlain`), and its components are those of the output root and these names
(`OutputLayout.components_pathOf_of_isPlain`).
-/

namespace InteropBindings

open Text InteropBindings.Path
open RawText (ofString)

/-! ## Plain names -/

/-- A name without backslashes, which stays one name when all backslashes become slashes. -/
def Path.IsPlainName (a : RawText) : Prop := IsName a ∧ backslash ∉ a.toList

instance : DecidablePred IsPlainName := fun a => inferInstanceAs (Decidable (IsName a ∧ backslash ∉ a.toList))

theorem Path.isPlainName_ofString {s : String} : IsPlainName s ↔ s ≠ "" ∧ s ≠ "." ∧ s ≠ ".." ∧ IsSlashFree s := by
  simp only [IsPlainName, isName_ofString, RawText.backslash_mem_ofString, IsSlashFree, and_assoc]

theorem Path.IsPlainName.shown {a : RawText} (h : IsPlainName a) : IsPlainName a.shown :=
  ⟨h.1.shown, mt (RawText.backslash_mem_ofString _).mp fun hback => h.2 (RawText.mem_of_mem_shown hback (by decide))⟩

theorem Text.IsUnmarked.isPlainName {s : String} (h : IsUnmarked s) : IsPlainName s := by
  refine isPlainName_ofString.mpr ⟨h.1, ?_, ?_, h.isSlashFree⟩ <;>
    · rintro rfl
      exact absurd (h.2 '.' (by simp)) (by decide)

theorem Path.IsPlainName.lower {s : String} (h : IsPlainName s) : IsPlainName (lower s) := by
  obtain ⟨hempty, hpoint, hpoints, hfree⟩ := isPlainName_ofString.mp h
  refine isPlainName_ofString.mpr ⟨lower_ne_empty hempty, fun hs => hpoint ?_, fun hs => hpoints ?_, hfree.lower⟩
  · exact eq_of_lower_eq hs (List.all_eq_true.mp rfl)
  · exact eq_of_lower_eq hs (List.all_eq_true.mp rfl)

namespace OutputLayout

/-! ## Plain ways -/

/-- The names that a way leads through. -/
def namesOfWay (w : String) : List String := if w = "" then [] else segments '/' (slashed ⟨w⟩)

/-- A way that consists of names alone, with slashes or backslashes in between. -/
def IsPlainWay (w : String) : Prop := ∀ n ∈ namesOfWay w, IsName n

instance : DecidablePred IsPlainWay := fun w => inferInstanceAs (Decidable (∀ n ∈ namesOfWay w, IsName n))

/-- Texts with a slash behind each. -/
def slashEach (names : List String) : String := String.join (names.map (· ++ "/"))

theorem slashEach_append (names : List String) (last : String) :
    slashEach names ++ last = joined '/' (names ++ [last]) := by
  induction names with
  | nil => simp [slashEach, joined, joinWith]
  | cons n names ih =>
    have hcons : slashEach (n :: names) = n ++ "/" ++ slashEach names := by simp [slashEach]
    rw [hcons, String.append_assoc, ih, List.cons_append, joined_cons _ _ (by simp)]

theorem slashEach_append_names (names more : List String) :
    slashEach (names ++ more) = slashEach names ++ slashEach more := by
  simp [slashEach, String.join_append]

theorem slashEach_namesOfWay {w : String} (h : w ≠ "") : slashEach (namesOfWay w) = slashed ⟨w⟩ ++ "/" := by
  have hsegments : segments '/' (slashed ⟨w⟩) ≠ [] := by simp [segments, segmentsOf_ne_nil]
  have hlast := slashEach_append (segments '/' (slashed ⟨w⟩)) ""
  rw [joined_append_singleton _ hsegments, joined_segments, String.append_empty, String.append_empty] at hlast
  rw [namesOfWay, if_neg h]
  exact hlast

/-- A plain way neither starts nor ends with a slash. -/
theorem IsPlainWay.no_slash {w : String} (h : IsPlainWay w) (bs : List UInt8) :
    (w : RawText).toList ≠ slash :: bs ∧ (w : RawText).toList ≠ bs ++ [slash] := by
  -- Otherwise one of its names would be empty.
  have hempty : ∀ a b : RawText, w = a ++ "/" ++ b → a = "" ∨ b = "" → False := by
    intro a b hw hnil
    have hne : w ≠ "" := by
      rintro rfl
      have hnil := congrArg RawText.toList hw
      simp at hnil
    have hslashed : slashed ⟨w⟩ = slashed ⟨a⟩ ++ String.ofList ['/'] ++ slashed ⟨b⟩ := by
      rw [hw, slashed_append_slash_append]
    have hname : "" ∈ namesOfWay w := by
      rw [namesOfWay, if_neg hne, hslashed, segments_append, List.mem_append]
      rcases hnil with rfl | rfl
      · exact .inl (List.mem_singleton.mpr rfl)
      · exact .inr (List.mem_singleton.mpr rfl)
    exact (isName_ofString.mp (h "" hname)).1 rfl
  constructor
  · exact fun hw => hempty "" (.ofList bs) (RawText.toList_inj.mp (by simpa using hw)) (.inl rfl)
  · exact fun hw => hempty (.ofList bs) "" (RawText.toList_inj.mp (by simpa using hw)) (.inr rfl)

/-- The folder behind a plain way has the names of the way at its end. -/
theorem IsPlainWay.slashed_front_join {w : String} (h : IsPlainWay w) (p : Path) :
    slashed ⟨(p.join w).front⟩ = slashed ⟨p.front⟩ ++ slashEach (namesOfWay w) := by
  by_cases hw : w = ""
  · subst hw
    have habsolute : isAbsolute ⟨""⟩ = false := rfl
    have hfront : (p.join "").front = p.front := by
      rw [join, push_eq p habsolute, RawText.append_empty, front_front]
    simp [hfront, namesOfWay, slashEach]
  · have hslash : slashed ⟨"/"⟩ = "/" := by decide
    have hne : ofString w ≠ "" := by simpa using hw
    rw [front_join hne h.no_slash, slashed_append_ofString, slashed_append_ofString, hslash, String.append_assoc,
      slashEach_namesOfWay hw]

/-- The folder behind plain ways has their names at its end. -/
theorem slashed_front_foldl_join {ways : List String} (h : ∀ w ∈ ways, IsPlainWay w) (p : Path) :
    slashed ⟨(ways.foldl (fun p w => p.join w) p).front⟩ = slashed ⟨p.front⟩ ++
      slashEach (ways.flatMap namesOfWay) := by
  induction ways generalizing p with
  | nil => simp [slashEach]
  | cons w ways ih =>
    rw [List.foldl_cons, ih (fun v hv => h v (List.mem_cons_of_mem _ hv)), (h w List.mem_cons_self).slashed_front_join,
      List.flatMap_cons, slashEach_append_names, String.append_assoc]

/-- The components of steps below a path. -/
theorem components_slashed_front_append_steps {steps : List String} (h : ∀ s ∈ steps, IsStep s) (p : Path) :
    components ⟨(slashed ⟨p.front⟩ ++ joined '/' steps : String)⟩ =
      components ⟨p.slashed⟩ ++ (steps.map ofString).map stepOf := by
  have hsteps : ∀ a ∈ steps.map ofString, IsStep a := List.forall_mem_map.mpr h
  by_cases hp : p.text = ""
  · obtain rfl : p = ⟨""⟩ := congrArg Path.mk hp
    have hfront : slashed ⟨front ⟨""⟩⟩ = "" := by decide
    have hroot : components ⟨slashed ⟨""⟩⟩ = [] := by decide
    rw [hfront, hroot, String.empty_append, List.nil_append, RawText.ofString_joined, components_joined_steps hsteps]
  · have hslash : (ofString (slashed ⟨p.front⟩)).endsWith "/" = true :=
      endsWith_slashed ((front_spec p).resolve_left (front_ne_empty hp))
    have hfront := components_slashed_front_append hp ""
    rw [RawText.append_empty, show stepsOf (slashed ⟨""⟩) = [] from rfl, List.append_nil] at hfront
    rw [RawText.ofString_append, components_append_of_endsWith hslash, hfront, RawText.ofString_joined,
      stepsOf_joined_steps hsteps]

/-- The components of names below a path. -/
theorem components_slashed_front_append_names {names : List String} (h : ∀ n ∈ names, IsName n) (p : Path) :
    components ⟨(slashed ⟨p.front⟩ ++ joined '/' names : String)⟩ =
      components ⟨p.slashed⟩ ++ (names.map ofString).map .normal := by
  rw [components_slashed_front_append_steps fun n hn => (h n hn).isStep, map_stepOf (List.forall_mem_map.mpr h)]

/-! ## Plain paths -/

variable {layout : OutputLayout} {name : String} {around : NamespacePath} {source : Path}

/-- The names below the output root that the folder of a binding is reached through. -/
def folderNames (layout : OutputLayout) (around : NamespacePath) (source : Path) : List String :=
  (layout.ways around source).flatMap namesOfWay

/-- A declaration whose name is an identifier and whose ways are plain. -/
def IsPlain (layout : OutputLayout) (l : Located) : Prop :=
  IsIdentifier l.declaration.name ∧ ∀ w ∈ layout.ways l.around l.file, IsPlainWay w

instance (layout : OutputLayout) : DecidablePred layout.IsPlain := fun l =>
  inferInstanceAs (Decidable (IsIdentifier l.declaration.name ∧ ∀ w ∈ layout.ways l.around l.file, IsPlainWay w))

theorem namesOfWay_of_isPlainName {s : String} (h : IsPlainName s) : namesOfWay s = [s] := by
  obtain ⟨hempty, _, _, hfree⟩ := isPlainName_ofString.mp h
  rw [namesOfWay, if_neg hempty, slashed_of_not_mem hfree.2, segments_of_not_mem hfree.1]

/-- The lowercase of plain names is followed name by name. -/
theorem flatMap_namesOfWay {names : List String} (h : ∀ n ∈ names, IsPlainName n) :
    (names.map lower).flatMap namesOfWay = names.map lower := by
  induction names with
  | nil => rfl
  | cons n names ih =>
    rw [List.map_cons, List.flatMap_cons, namesOfWay_of_isPlainName (h n List.mem_cons_self).lower,
      ih fun m hm => h m (List.mem_cons_of_mem _ hm), List.singleton_append]

/-- A declaration whose name and namespaces are identifiers; outside of namespaces the folder of its source file is
plain. -/
def HasPlainNames (layout : OutputLayout) (l : Located) : Prop :=
  IsIdentifier l.declaration.name ∧ (∀ segment ∈ l.around, IsIdentifier segment) ∧
    (l.around = [] → IsPlainWay (layout.sourceFolder l.file))

instance (layout : OutputLayout) : DecidablePred layout.HasPlainNames := fun l =>
  inferInstanceAs (Decidable (IsIdentifier l.declaration.name ∧ (∀ segment ∈ l.around, IsIdentifier segment) ∧
    (l.around = [] → IsPlainWay (layout.sourceFolder l.file))))

/-- Declarations with plain names are plain. -/
theorem HasPlainNames.isPlain {l : Located} (h : layout.HasPlainNames l) : layout.IsPlain l := by
  obtain ⟨hname, hsegments, hfolder⟩ := h
  have hways : ∀ w ∈ layout.ways l.around l.file, IsPlainWay w := by
    cases hempty : l.around.isEmpty with
    | true =>
      have hplain : IsPlainWay (layout.sourceFolder l.file) := hfolder (List.isEmpty_iff.mp hempty)
      have hone : layout.ways l.around l.file = [layout.sourceFolder l.file] := by
        rw [ways, if_pos hempty]
      rw [hone]
      exact List.forall_mem_singleton.mpr hplain
    | false =>
      have hmany : layout.ways l.around l.file = l.around.map lower := by
        rw [ways, if_neg (by rw [hempty]; exact Bool.false_ne_true)]
      rw [hmany]
      refine List.forall_mem_map.mpr fun segment hsegment n hn => ?_
      have hplain : IsPlainName (lower segment) := (hsegments segment hsegment).isUnmarked.isPlainName.lower
      rw [namesOfWay_of_isPlainName hplain] at hn
      rw [List.mem_singleton.mp hn]
      exact hplain.1
  exact ⟨hname, hways⟩

/-- **The path behind plain ways** is the output root, the names and the file name with slashes in between. -/
theorem outputPath_of_isPlainWay (hname : IsSlashFree name) (hways : ∀ w ∈ layout.ways around source, IsPlainWay w) :
    layout.outputPath name around source = slashed ⟨layout.outputRoot.front⟩ ++
      joined '/' (layout.folderNames around source ++ [fileName name]) := by
  rw [outputPath_eq hname, folder_eq_foldl, slashed_front_foldl_join hways, String.append_assoc,
    slashEach_append, folderNames]

theorem pathOf_of_isPlain {l : Located} (h : layout.IsPlain l) :
    layout.pathOf l = slashed ⟨layout.outputRoot.front⟩ ++
      joined '/' (layout.folderNames l.around l.file ++ [fileName l.declaration.name]) :=
  outputPath_of_isPlainWay h.1.isUnmarked.isSlashFree h.2

/-- **The path inside plain namespaces** does not depend on the source file. -/
theorem outputPath_of_isPlainName (hne : around ≠ []) (haround : ∀ s ∈ around, IsPlainName s) (hname : IsSlashFree name)
    (source : Path) : layout.outputPath name around source =
      slashed ⟨layout.outputRoot.front⟩ ++ joined '/' (around.map lower ++ [fileName name]) := by
  have hways : layout.ways around source = around.map lower := by
    rw [ways, if_neg (by simpa using hne)]
  have hplain : ∀ w ∈ layout.ways around source, IsPlainWay w := by
    rw [hways]
    refine List.forall_mem_map.mpr fun s hs n hn => ?_
    rw [namesOfWay_of_isPlainName (haround s hs).lower] at hn
    exact List.mem_singleton.mp hn ▸ (haround s hs).lower.1
  rw [outputPath_of_isPlainWay hname hplain, folderNames, hways, flatMap_namesOfWay haround]

/-- The names in the path of a plain declaration. -/
theorem isName_of_isPlain {l : Located} (h : layout.IsPlain l) :
    ∀ n ∈ layout.folderNames l.around l.file ++ [fileName l.declaration.name], IsName n := by
  intro n hn
  rcases List.mem_append.mp hn with hn | hn
  · obtain ⟨w, hw, hn⟩ := List.mem_flatMap.mp hn
    exact h.2 w hw n hn
  · obtain rfl := List.mem_singleton.mp hn
    exact (isName_fileName h.1.isUnmarked.isSlashFree).1

/-- **The components of the path** of a plain declaration. -/
theorem components_pathOf_of_isPlain {l : Located} (h : layout.IsPlain l) :
    components ⟨layout.pathOf l⟩ = components ⟨layout.outputRoot.slashed⟩ ++
      ((layout.folderNames l.around l.file ++ [fileName l.declaration.name]).map ofString).map .normal := by
  have hnames := isName_of_isPlain h
  rw [pathOf_of_isPlain h, components_slashed_front_append_names hnames]

theorem fileName_pathOf_of_isPlain {l : Located} (h : layout.IsPlain l) :
    Path.fileName ⟨layout.pathOf l⟩ = some (fileName l.declaration.name) := by
  have hcomponents := components_pathOf_of_isPlain h
  rw [List.map_append, List.map_append, ← List.append_assoc, List.map_singleton, List.map_singleton] at hcomponents
  exact fileName_eq_some_iff.mpr ⟨_, hcomponents⟩

/-- **Plain declarations** with the same path, up to its spelling, have the same path. -/
theorem pathOf_eq_of_same {l l' : Located} (h : layout.IsPlain l) (h' : layout.IsPlain l')
    (hsame : same ⟨layout.pathOf l⟩ ⟨layout.pathOf l'⟩ = true) : layout.pathOf l = layout.pathOf l' := by
  have hcomponents := beq_iff_eq.mp hsame
  rw [components_pathOf_of_isPlain h, components_pathOf_of_isPlain h', List.append_cancel_left_eq] at hcomponents
  have hnames := (List.map_inj_right fun _ _ => RawText.ofString_inj.mp).mp
    ((List.map_inj_right fun _ _ => Component.normal.inj).mp hcomponents)
  rw [pathOf_of_isPlain h, pathOf_of_isPlain h', hnames]

end OutputLayout

end InteropBindings
