import InteropBindings.Proofs.Output.Imports
import InteropBindings.Proofs.Output.PlainPaths
import InteropBindings.Proofs.Symbol.DottedNames

/-!
# Import paths and output paths

The path of a binding is reached from the output root, one namespace at a time; the path that others import it by is cut
out of its dotted name and joined again. For a symbol in namespaces the two are spelled alike:

- a dotted name gives back its namespaces and its name where these hold no points (`QualifiedName.names_within`);
- the import starts with a point and a slash, and goes on with the lowercase of these (`importPath_within`);
- from the output root that leads to the path of the binding, whatever the source file is
  (`OutputLayout.target_importPath_of_isUnmarked`).

So all declarations of the symbol go to one record, and all others import this record by one path
(`OutputLayout.importPath_spells_outputPath`).
-/

namespace InteropBindings

open Text InteropBindings.Path

/-! ## Joined names -/

theorem Text.exists_joined_eq_cons {sep c : Char} {cs : List Char} {first : String} (h : first.toList = c :: cs)
    (rest : List String) : ∃ ds, (joined sep (first :: rest)).toList = c :: ds := by
  cases rest with
  | nil => exact ⟨cs, by simpa [joined, joinWith] using h⟩
  | cons second rest =>
    rw [joined_cons sep first (List.cons_ne_nil second rest), String.toList_append, String.toList_append, h]
    exact ⟨_, rfl⟩

/-! ## Names without marks -/

theorem Text.IsUnmarked.pointFree {s : String} (h : IsUnmarked s) : PointFree s := h.not_mem rfl

/-- The parts of a dotted name are recovered from it. -/
theorem QualifiedName.names_within {around : NamespacePath} {name : String} (haround : ∀ s ∈ around, PointFree s)
    (hname : PointFree name) :
    (within around name).namespaceSegments = around ∧ (within around name).symbolName = name := by
  rw [namespaceSegments, symbolName, parts_within haround hname]
  exact ⟨List.dropLast_concat, List.getLastD_concat⟩

/-- Where names lead to, one below the other and in lowercase, with a binding file at the end. -/
def lowerPath (around : NamespacePath) (name : String) :
    String := joined '/' (around.map lower ++ [OutputLayout.fileName name])

/-- The file that an import leads to from the output root. -/
def OutputLayout.target (layout : OutputLayout) (i : String) : String :=
  (layout.outputRoot.join (if beginsWith "./" i then String.ofList (i.toList.drop 2) else i)).slashed

section

variable {around : NamespacePath} {name : String} (hne : around ≠ []) (haround : ∀ s ∈ around, IsUnmarked s)
  (hname : IsUnmarked name)

include hne haround in
/-- The lowercase of names without marks begins with no mark, so it neither starts over nor leads up. -/
theorem not_beginsWith_lowerPath {start : String} {mark : Char} (hstart : start.toList = [mark])
    (hmark : isPathMark mark = true) : beginsWith start (lowerPath around name) = false := by
  obtain ⟨outer, inner, rfl⟩ := List.exists_cons_of_ne_nil hne
  have houter : IsUnmarked (lower outer) := (haround outer List.mem_cons_self).lower
  obtain ⟨c, cs, hc⟩ : ∃ c cs, (lower outer).toList = c :: cs :=
    List.exists_cons_of_ne_nil fun hnil => houter.1 (String.toList_inj.mp hnil)
  obtain ⟨ds, hds⟩ : ∃ ds, (lowerPath (outer :: inner) name).toList = c :: ds := exists_joined_eq_cons hc _
  have hcne : mark ≠ c := by
    rintro rfl
    exact houter.not_mem hmark (hc ▸ List.mem_cons_self)
  rw [beginsWith, hstart, hds, List.isPrefixOf, beq_false_of_ne hcne, Bool.false_and]

include haround hname in
/-- The lowercase of names without marks holds no backslashes. -/
theorem slashed_lowerPath : slashed ⟨lowerPath around name⟩ = lowerPath around name := by
  apply slashed_of_not_mem
  apply not_mem_joined (by decide)
  intro n hn
  rcases List.mem_append.mp hn with hn | hn
  · obtain ⟨s, hs, rfl⟩ := List.mem_map.mp hn
    exact (haround s hs).lower.isSlashFree.2
  · rw [List.mem_singleton.mp hn]
    exact (OutputLayout.isName_fileName hname.isSlashFree).2

include hne haround hname in
/-- **The import of a symbol in namespaces.** -/
theorem importPath_within : importPath (.within around name) = "./" ++ lowerPath around name := by
  obtain ⟨hsegments, hsymbol⟩ := QualifiedName.names_within (fun s hs => (haround s hs).pointFree) hname.pointFree
  have hbegins : beginsWith "." (lowerPath around name) = false := not_beginsWith_lowerPath hne haround rfl rfl
  rw [importPath, hsegments, hsymbol]
  exact if_neg (by rw [Bool.not_eq_true]; exact hbegins)

include hne haround hname in
/-- **The path of a binding in namespaces** is reached from the output root in one step, too. -/
theorem OutputLayout.outputPath_eq_join_lowerPath (layout : OutputLayout) (source : Path) :
    layout.outputPath name around source = (layout.outputRoot.join (lowerPath around name)).slashed := by
  have habsolute : isAbsolute ⟨lowerPath around name⟩ = false := by
    rw [isAbsolute, RawText.beginsWith_slash_ofString]
    exact not_beginsWith_lowerPath hne haround rfl rfl
  rw [outputPath_of_isPlainName hne (fun s hs => (haround s hs).isPlainName) hname.isSlashFree, join,
    push_eq _ habsolute, slashed_append_ofString, slashed_lowerPath haround hname, lowerPath]

include hne haround hname in
/-- **The import of a symbol in namespaces** leads to the path of its binding. -/
theorem OutputLayout.target_importPath_of_isUnmarked (layout : OutputLayout) (source : Path) :
    layout.target (importPath (.within around name)) = layout.outputPath name around source := by
  have hbegins : beginsWith "./" ("./" ++ lowerPath around name) = true := by
    rw [beginsWith, String.toList_append]
    exact List.isPrefixOf_iff_prefix.mpr (List.prefix_append _ _)
  have hdrop : String.ofList (("./" ++ lowerPath around name).toList.drop 2) = lowerPath around name := by
    rw [String.toList_append]
    exact String.ofList_toList
  rw [importPath_within hne haround hname, target, if_pos hbegins, hdrop,
    layout.outputPath_eq_join_lowerPath hne haround hname source]

end

namespace OutputLayout

open OutputRecords

/-- **Import paths and output paths agree.** Take any layout, and a symbol in namespaces, with neither points nor
slashes nor backslashes in any of their names. The import of the symbol starts with `./`, and what follows leads from
the output root to the path of its binding, whatever the source file is. So in every run all declarations that share the
dotted name of the symbol, from whichever files, are sent to one path and to no other, and every reference from another
file imports that path. -/
theorem importPath_spells_outputPath (layout : OutputLayout) {around : NamespacePath} {name : String}
    (hne : around ≠ []) (haround : ∀ s ∈ around, IsUnmarked s) (hname : IsUnmarked name) :
    ∃ rest, importPath (.within around name) = "./" ++ rest ∧
      (∀ source, layout.outputPath name around source = (layout.outputRoot.join rest).slashed) ∧
      (∀ table files, ∀ l ∈ visited table files, l.qualifiedName = .within around name →
        (∀ s ∈ l.around, PointFree s) → PointFree l.declaration.name →
        ∀ path, l ∈ sentTo table layout files path ↔ path = (layout.outputRoot.join rest).slashed) ∧
      (∀ s t, Scope.RefersOutside s t (.within around name) → s.import? t = some ("./" ++ rest)) := by
  have himport := importPath_within hne haround hname
  have hpath := layout.outputPath_eq_join_lowerPath hne haround hname
  refine ⟨lowerPath around name, himport, hpath, ?_, ?_⟩
  · intro table files l hl hq hpoints hpoint path
    obtain ⟨hsame, hsameName⟩ :=
      QualifiedName.within_inj hpoints hpoint (fun s hs => (haround s hs).pointFree) hname.pointFree hq
    have hkey : layout.pathOf l = (layout.outputRoot.join (lowerPath around name)).slashed := by
      rw [pathOf, hsame, hsameName]
      exact hpath l.file
    rw [sentTo, List.mem_filter, decide_eq_true_iff, hkey, and_iff_right hl, eq_comm]
  · intro s t hrefers
    exact Scope.import?_eq_some_iff.mpr ⟨_, hrefers, himport⟩

/-- Two files that declare one class, and a third that refers to it. The capital sigmas have different lowercases. -/
def sigmaFiles : List DeclarationFile :=
  [⟨⟨"in/a.d.ts"⟩, [.namespaceItem "Ol" [.namespaceItem "ΣΑΣ" [.declaration (.classDecl ⟨"Tile", []⟩)]]]⟩,
   ⟨⟨"in/sub/b.d.ts"⟩, [.namespaceItem "Ol" [.namespaceItem "ΣΑΣ" [.declaration (.classDecl ⟨"Tile", []⟩)]]]⟩,
   ⟨⟨"in/c.d.ts"⟩, [.namespaceItem "Ol" [.declaration (.alias ⟨"Size", .array (.reference "ΣΑΣ.Tile")⟩)]]⟩]

/-- The class has one record, and the alias imports it. -/
theorem importPath_spells_outputPath_sigma :
    let layout : OutputLayout := ⟨⟨"in"⟩, ⟨"out\\dart/"⟩⟩
    let table := SymbolTable.build sigmaFiles {}
    importPath (.within ["Ol", "ΣΑΣ"] "Tile") = "./ol/σας/tile.dart" ∧
      (∀ source, layout.outputPath "Tile" ["Ol", "ΣΑΣ"] source = "out/dart/ol/σας/tile.dart") ∧
      (sentTo table layout sigmaFiles "out/dart/ol/σας/tile.dart").length = 2 ∧
      (scopeOf table ⟨⟨"in/c.d.ts"⟩, ["Ol"], .alias ⟨"Size", .array (.reference "ΣΑΣ.Tile")⟩⟩).import?
        (.array (.reference "ΣΑΣ.Tile")) = some "./ol/σας/tile.dart" := by
  intro layout table
  have hunmarked : (∀ s ∈ ["Ol", "ΣΑΣ"], IsUnmarked s) ∧ IsUnmarked "Tile" := by decide
  obtain ⟨rest, himport, hpath, hsent, himports⟩ :=
    importPath_spells_outputPath layout (List.cons_ne_nil "Ol" ["ΣΑΣ"]) hunmarked.1 hunmarked.2
  have hvalue : importPath (.within ["Ol", "ΣΑΣ"] "Tile") = "./ol/σας/tile.dart" := by decide +kernel
  obtain rfl : rest = "ol/σας/tile.dart" := by
    rw [hvalue] at himport
    exact (String.append_right_inj "./").mp himport.symm
  have hkey : (layout.outputRoot.join "ol/σας/tile.dart").slashed = "out/dart/ol/σας/tile.dart" := by decide +kernel
  rw [hkey] at hpath hsent
  refine ⟨hvalue, hpath, ?_, himports _ _ ⟨"ΣΑΣ.Tile", ⟨"in/sub/b.d.ts"⟩, rfl, rfl, by decide +kernel, by
    decide, by decide⟩⟩
  decide +kernel

end OutputLayout

end InteropBindings
