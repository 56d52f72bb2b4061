import InteropBindings.Proofs.Output.Merging
import InteropBindings.Proofs.Symbol.Resolution

/-!
# Places of symbols

Declarations of one symbol are merged in a record, so how often a signature is bound in a run depends on the paths that
these declarations are sent to.

- a record binds a signature exactly when a declaration that carries it is sent there (`OutputRecords.binds_route_iff`);
- inside namespaces the path follows from the names alone, outside of them also from the source file
  (`OutputLayout.pathOf_ne`);
- so a signature of a symbol inside namespaces is bound once in a run, and one of a symbol outside of them once for each
  source file (`OutputRecords.route_binds_once_per_place`).
-/

namespace InteropBindings

/-! ## Declarations that carry a signature -/

/-- Whether a declaration binds something under a signature of a symbol. -/
def Located.Carries (q : QualifiedName) (s : String) (l : Located) : Prop := ∃ b ∈ l.bindings, b.key = (q, s)

/-- A declaration carries signatures of its own symbol. -/
theorem Located.Carries.qualifiedName {q : QualifiedName} {s : String} {l : Located} (h : l.Carries q s) :
    l.qualifiedName = q := by
  obtain ⟨b, hb, hk⟩ := h
  have hq : b.name = q := congrArg Prod.fst hk
  rw [← hq, Binding.name, origin_of_mem_bindings hb]

/-- The signatures of a symbol are those that its declarations carry. -/
theorem mem_signaturesIn_iff_carries {q : QualifiedName} {s : String} {ls : List Located} :
    s ∈ signaturesIn q ls ↔ ∃ l ∈ ls, l.Carries q s := by
  rw [mem_signaturesIn, List.mem_map]
  constructor
  · rintro ⟨b, hb, hk⟩
    obtain ⟨l, hl, hb⟩ := List.mem_flatMap.mp hb
    exact ⟨l, hl, b, hb, hk⟩
  · rintro ⟨l, hl, b, hb, hk⟩
    exact ⟨b, List.mem_flatMap.mpr ⟨l, hl, hb⟩, hk⟩

/-- Where names hold no points, the name of a declaration and the namespaces around it are read off the signatures that
it carries. -/
theorem Located.Carries.parts {q : QualifiedName} {s : String} {l : Located} (h : l.Carries q s)
    (ha : ∀ segment ∈ l.around, Text.PointFree segment) (hn : Text.PointFree l.declaration.name) :
    q.namespaceSegments = l.around ∧ q.symbolName = l.declaration.name := by
  have hparts : q.parts = l.around ++ [l.declaration.name] := by
    rw [← h.qualifiedName]
    exact QualifiedName.parts_within ha hn
  rw [QualifiedName.namespaceSegments, QualifiedName.symbolName, hparts]
  simp

/-! ## Paths -/

namespace OutputLayout

/-- Inside namespaces the source file does not matter. -/
theorem outputPath_of_ne_nil (layout : OutputLayout) (name : String) {around : NamespacePath} (h : around ≠ [])
    (source source' : Path) : layout.outputPath name around source = layout.outputPath name around source' := by
  have hempty : ¬ around.isEmpty = true := by simpa using h
  rw [outputPath, outputPath, folder, folder, if_neg hempty, if_neg hempty]

/-- **Declarations with different paths** stand outside of all namespaces in different source files, or inside different
namespaces, or have different names. -/
theorem pathOf_ne {layout : OutputLayout} {l l' : Located} (h : layout.pathOf l ≠ layout.pathOf l') :
    (l.around = [] ∧ l'.around = [] ∧ l.file ≠ l'.file) ∨ l.around ≠ l'.around ∨
      l.declaration.name ≠ l'.declaration.name := by
  by_cases ha : l.around = l'.around
  · by_cases hn : l.declaration.name = l'.declaration.name
    · left
      by_cases hnil : l.around = []
      · refine ⟨hnil, ha ▸ hnil, fun hf => h ?_⟩
        rw [pathOf, pathOf, ha, hn, hf]
      · refine absurd ?_ h
        rw [pathOf, pathOf, ← ha, ← hn]
        exact layout.outputPath_of_ne_nil _ hnil _ _
    · exact .inr (.inr hn)
  · exact .inr (.inl ha)

end OutputLayout

/-! ## Records that bind a signature -/

namespace OutputRecords

/-- Whether the record at a path has a signature of a symbol bound. -/
def Binds (records : OutputRecords) (path : String) (q : QualifiedName) (s : String) : Prop :=
  s ∈ (records.recordAt path).signatures.of q

instance {records : OutputRecords} {path : String} {q : QualifiedName} {s : String} :
    Decidable (records.Binds path q s) :=
  inferInstanceAs (Decidable (s ∈ (records.recordAt path).signatures.of q))

/-- No signature of a symbol is bound at two paths. -/
def BindsOnce (records : OutputRecords) : Prop :=
  ∀ q s path path', records.Binds path q s → records.Binds path' q s → path = path'

variable {files : List DeclarationFile} {table : SymbolTable} {layout : OutputLayout} {q : QualifiedName} {s : String}

/-- **A record binds what is carried to its path.** -/
theorem binds_route_iff {path : String} :
    (route files table layout).Binds path q s ↔
      ∃ l ∈ visited table files, l.Carries q s ∧ layout.pathOf l = path := by
  have hr := OutputRecord.represents_addAll table (sentTo table layout files path)
  rw [Binds, recordAt_route, hr.of_signatures, List.mem_eraseDups, mem_signaturesIn_iff_carries]
  constructor
  · rintro ⟨l, hl, hs⟩
    obtain ⟨hvisited, hpath⟩ := List.mem_filter.mp hl
    exact ⟨l, hvisited, hs, of_decide_eq_true hpath⟩
  · rintro ⟨l, hvisited, hs, hpath⟩
    exact ⟨l, List.mem_filter.mpr ⟨hvisited, decide_eq_true hpath⟩, hs⟩

theorem pointFree_of_mem_visited (hfiles : ∀ file ∈ files, table.isPlatform file.path = false → file.PointFree)
    {l : Located} (hl : l ∈ visited table files) :
    (∀ segment ∈ l.around, Text.PointFree segment) ∧ Text.PointFree l.declaration.name := by
  obtain ⟨file, hfile, hp, _, hd, _⟩ := (mem_visited table).mp hl
  exact hfiles file hfile hp l.around l.declaration hd

/-- **How often a signature is bound in a run.** The records that bind a signature of a symbol are those at the paths of
the declarations that carry it.

- Two records bind it only for two declarations that stand outside of all namespaces in different source files, or that
  do not have the same namespaces and the same name, although their qualified names are the same.
- Where names hold no points, a signature of a symbol inside namespaces is bound in one record at most, and a signature
  of a symbol outside of them in one record at most for each source file that declares it there. -/
theorem route_binds_once_per_place (files : List DeclarationFile) (table : SymbolTable) (layout : OutputLayout)
    (q : QualifiedName) (s : String) :
    let records := route files table layout
    (∀ path, records.Binds path q s ↔ ∃ l ∈ visited table files, l.Carries q s ∧ layout.pathOf l = path) ∧
    (∀ path path', records.Binds path q s → records.Binds path' q s → path ≠ path' →
      ∃ l ∈ visited table files, ∃ l' ∈ visited table files, l.Carries q s ∧ l'.Carries q s ∧
        layout.pathOf l = path ∧ layout.pathOf l' = path' ∧
        ((l.around = [] ∧ l'.around = [] ∧ l.file ≠ l'.file) ∨
          (l.around, l.declaration.name) ≠ (l'.around, l'.declaration.name))) ∧
    ((∀ file ∈ files, table.isPlatform file.path = false → file.PointFree) →
      (q.namespaceSegments ≠ [] → ∀ path path', records.Binds path q s → records.Binds path' q s → path = path') ∧
      (q.namespaceSegments = [] → ∀ path, records.Binds path q s →
        ∃ file ∈ files, table.isPlatform file.path = false ∧
          (∃ decl, file.Declares [] decl ∧ (⟨file.path, [], decl⟩ : Located).Carries q s) ∧
          path = layout.outputPath q.symbolName [] file.path)) := by
  intro records
  refine ⟨fun path => binds_route_iff, ?_, fun hfiles => ⟨?_, ?_⟩⟩
  · intro path path' hb hb' hne
    obtain ⟨l, hl, hs, rfl⟩ := binds_route_iff.mp hb
    obtain ⟨l', hl', hs', rfl⟩ := binds_route_iff.mp hb'
    refine ⟨l, hl, l', hl', hs, hs', rfl, rfl, ?_⟩
    rcases OutputLayout.pathOf_ne hne with h | h | h
    · exact .inl h
    · exact .inr fun he => h (congrArg Prod.fst he)
    · exact .inr fun he => h (congrArg Prod.snd he)
  · intro hq path path' hb hb'
    obtain ⟨l, hl, hs, rfl⟩ := binds_route_iff.mp hb
    obtain ⟨l', hl', hs', rfl⟩ := binds_route_iff.mp hb'
    obtain ⟨ha, hn⟩ := pointFree_of_mem_visited hfiles hl
    obtain ⟨ha', hn'⟩ := pointFree_of_mem_visited hfiles hl'
    obtain ⟨haround, hname⟩ := hs.parts ha hn
    obtain ⟨haround', hname'⟩ := hs'.parts ha' hn'
    have hnil : l.around ≠ [] := haround ▸ hq
    calc layout.pathOf l = layout.outputPath l.declaration.name l.around l'.file :=
          layout.outputPath_of_ne_nil _ hnil _ _
      _ = layout.pathOf l' := by rw [OutputLayout.pathOf, ← haround, ← hname, haround', hname']
  · intro hq path hb
    obtain ⟨l, hl, hs, rfl⟩ := binds_route_iff.mp hb
    obtain ⟨ha, hn⟩ := pointFree_of_mem_visited hfiles hl
    obtain ⟨haround, hname⟩ := hs.parts ha hn
    have hnil : l.around = [] := haround ▸ hq
    obtain ⟨file, hfile, hp, hf, hd, _⟩ := (mem_visited table).mp hl
    have hl' : (⟨file.path, [], l.declaration⟩ : Located) = l := by
      rw [← hf, ← hnil]
    refine ⟨file, hfile, hp, ⟨l.declaration, hnil ▸ hd, hl' ▸ hs⟩, ?_⟩
    rw [OutputLayout.pathOf, hnil, hname, hf]

/-- A class inside a namespace of two files. -/
def viewFiles : List DeclarationFile :=
  [⟨⟨"in/a.d.ts"⟩, [.namespaceItem "ol" [.declaration (.classDecl ⟨"View", [.method "fit" [] none]⟩)]]⟩,
   ⟨⟨"in/b.d.ts"⟩, [.declaration (.interface "Options"),
     .namespaceItem "ol" [.declaration (.classDecl ⟨"View", [.method "fit" [] none]⟩)]]⟩]

/-- The member that both files declare is bound in the one record of the class. -/
theorem route_binds_once_per_place_viewFiles :
    let table := SymbolTable.build viewFiles {}
    let layout : OutputLayout := ⟨⟨"in"⟩, ⟨"out"⟩⟩
    let records := route viewFiles table layout
    records.Binds "out/ol/view.dart" ⟨"ol.View"⟩ "fit()" ∧
      ∀ path, records.Binds path ⟨"ol.View"⟩ "fit()" → path = "out/ol/view.dart" := by
  intro table layout records
  obtain ⟨_, _, honce⟩ := route_binds_once_per_place viewFiles table layout ⟨"ol.View"⟩ "fit()"
  have hbinds : records.Binds "out/ol/view.dart" ⟨"ol.View"⟩ "fit()" := by decide +kernel
  have hfiles : ∀ file ∈ viewFiles, table.isPlatform file.path = false → file.PointFree := by decide
  exact ⟨hbinds, fun path hb => (honce hfiles).1 (by decide) _ _ hb hbinds⟩

/-- A function outside of all namespaces in two files. -/
def renderFiles : List DeclarationFile :=
  [⟨⟨"in/a.d.ts"⟩, [.declaration (.function ⟨"render", [], some (.keyword .void)⟩)]⟩,
   ⟨⟨"in/b.d.ts"⟩, [.declaration (.function ⟨"render", [], some (.keyword .void)⟩)]⟩]

/-- **Outside of namespaces a signature is bound more than once**: each source file has a folder of its own. -/
theorem not_bindsOnce_renderFiles :
    ¬ (route renderFiles (SymbolTable.build renderFiles {}) ⟨⟨"in"⟩, ⟨"out"⟩⟩).BindsOnce := by
  intro h
  have hpath : "out/a/render.dart" = "out/b/render.dart" :=
    h ⟨"render"⟩ "render()" "out/a/render.dart" "out/b/render.dart" (by decide +kernel) (by decide +kernel)
  exact absurd hpath (by decide)

end OutputRecords

end InteropBindings
