import InteropBindings.Proofs.Declaration.Namespaces
import InteropBindings.Proofs.Output.Merging
import InteropBindings.Proofs.Symbol.Building
import InteropBindings.Proofs.Symbol.DottedNames

/-!
# What a qualified name tells of its symbol

A qualified name is cut at its points to find the namespaces and the name again. The name of a declaration is an
identifier and holds no point, but a module may be called by any text, and a point in that text looks like one between
two namespaces.

- the name is found again, and the namespaces are found again in pieces, cut at all points inside of them
  (`QualifiedName.namespaceSegments_within`), which are the namespaces themselves exactly when these hold no points
  (`pointPieces_eq_self_iff`);
- symbols share a qualified name exactly when they share the name and the pieces (`QualifiedName.within_eq_within_iff`).

So the keys of a symbol table and of the signatures of a record stand for symbols up to the points in their namespaces
(`QualifiedName.identifies_up_to_points`).
-/

namespace InteropBindings

open Text

/-! ## Pieces of namespaces -/

/-- The pieces of namespaces, cut also at the points inside of them. -/
def pointPieces (around : NamespacePath) : List String := around.flatMap (segments '.')

/-- Namespaces that are joined are cut into their pieces. -/
theorem segments_joined_points {around : NamespacePath} (h : around ≠ []) :
    segments '.' (joined '.' around) = pointPieces around := by
  induction around with
  | nil => exact absurd rfl h
  | cons outer inner ih =>
    cases inner with
    | nil => simp [pointPieces, joined, joinWith]
    | cons next rest =>
      have hne : next :: rest ≠ [] := List.cons_ne_nil next rest
      rw [joined_cons '.' outer hne, segments_append, ih hne]
      rfl

theorem pointFree_of_mem_pointPieces {around : NamespacePath} {piece : String} (h : piece ∈ pointPieces around) :
    PointFree piece := by
  obtain ⟨s, _, hpiece⟩ := List.mem_flatMap.mp h
  obtain ⟨cs, hcs, rfl⟩ := List.mem_map.mp hpiece
  rw [PointFree, String.toList_ofList]
  exact not_mem_of_mem_segmentsOf hcs

/-- **Namespaces are their own pieces** exactly when they hold no points. -/
theorem pointPieces_eq_self_iff {around : NamespacePath} : pointPieces around = around ↔ ∀ s ∈ around, PointFree s := by
  constructor
  · intro h s hs
    rw [← h] at hs
    exact pointFree_of_mem_pointPieces hs
  · intro h
    calc pointPieces around = around.flatMap fun s => [s] :=
          List.flatMap_congr fun s hs => segments_of_not_mem (h s hs)
      _ = around := by simp

namespace QualifiedName

/-! ## What is found again -/

theorem parts_within_eq (around : NamespacePath) {name : String} (h : PointFree name) :
    (within around name).parts = pointPieces around ++ [name] := by
  by_cases ha : around = []
  · rw [ha, within_nil, parts, segments_of_not_mem h]
    rfl
  · rw [parts_within_of_ne_nil ha, segments_joined_points ha, segments_of_not_mem h]

/-- **The namespaces are found again in pieces.** -/
theorem namespaceSegments_within (around : NamespacePath) {name : String} (h : PointFree name) :
    (within around name).namespaceSegments = pointPieces around := by
  rw [namespaceSegments, parts_within_eq around h, List.dropLast_concat]

/-- A qualified name is told by its parts. -/
theorem eq_of_parts_eq {q q' : QualifiedName} (h : q.parts = q'.parts) : q = q' := by
  have htext : q.text = q'.text := by
    rw [← joined_segments '.' q.text, ← joined_segments '.' q'.text]
    exact congrArg (joined '.') h
  cases q
  cases q'
  cases htext
  rfl

/-- **Symbols share a qualified name** exactly when they share the name and the pieces of their namespaces. -/
theorem within_eq_within_iff {around around' : NamespacePath} {name name' : String} (h : PointFree name)
    (h' : PointFree name') :
    within around name = within around' name' ↔ pointPieces around = pointPieces around' ∧ name = name' := by
  constructor
  · intro he
    have hparts := congrArg parts he
    rw [parts_within_eq around h, parts_within_eq around' h'] at hparts
    obtain ⟨hpieces, hname⟩ := List.append_inj' hparts rfl
    exact ⟨hpieces, List.singleton_inj.mp hname⟩
  · rintro ⟨hpieces, rfl⟩
    apply eq_of_parts_eq
    rw [parts_within_eq around h, parts_within_eq around' h, hpieces]

/-- Some declarations have a qualified name when one of them has the name and the pieces of the namespaces. -/
theorem exists_qualifiedName_iff {ls : List Located} (hls : ∀ l ∈ ls, PointFree l.declaration.name)
    {around : NamespacePath} {name : String} (h : PointFree name) :
    (∃ l ∈ ls, l.qualifiedName = within around name) ↔
      ∃ l ∈ ls, pointPieces l.around = pointPieces around ∧ l.declaration.name = name :=
  exists_congr fun l => and_congr_right fun hl => within_eq_within_iff (hls l hl) h

/-! ## Keys -/

/-- **Qualified names identify symbols up to the points in their namespaces.** Take a symbol in any namespaces, whose
name is an identifier, of which it matters only that it holds no point.

- Its qualified name gives back the name, and the pieces of the namespaces in place of the namespaces; these are the
  same exactly when no namespace holds a point.
- Another symbol shares the qualified name exactly when it has the name and the pieces. Where no namespace holds a
  point, it is the same symbol.
- A symbol table has the qualified name as a key exactly when a type is declared with the name and the pieces, and the
  signatures of a record have it exactly when such a class or function is sent there. -/
theorem identifies_up_to_points (around : NamespacePath) {name : String} (h : PointFree name) :
    (within around name).symbolName = name ∧ (within around name).namespaceSegments = pointPieces around ∧
    ((within around name).namespaceSegments = around ↔ ∀ s ∈ around, PointFree s) ∧
    (∀ (around' : NamespacePath) (name' : String), PointFree name' →
      (within around name = within around' name' ↔ pointPieces around = pointPieces around' ∧ name = name') ∧
        ((∀ s ∈ around ++ around', PointFree s) →
          (within around name = within around' name' ↔ (around, name) = (around', name')))) ∧
    (∀ (files : List DeclarationFile) (platform : PlatformFilter),
      let scanned := SymbolTable.scanned files platform
      (∀ l ∈ scanned, PointFree l.declaration.name) →
        ((SymbolTable.build files platform).contains (within around name) = true ↔
          ∃ l ∈ scanned, pointPieces l.around = pointPieces around ∧ l.declaration.name = name)) ∧
    ∀ (files : List DeclarationFile) (table : SymbolTable) (layout : OutputLayout) (path : String) (r : OutputRecord),
      (OutputRecords.route files table layout).get? path = some r →
      let merged := (OutputRecords.sentTo table layout files path).filter fun l => l.declaration.hasSignatures
      (∀ l ∈ merged, PointFree l.declaration.name) →
        (r.signatures.contains (within around name) = true ↔
          ∃ l ∈ merged, pointPieces l.around = pointPieces around ∧ l.declaration.name = name) := by
  have hsegments := namespaceSegments_within around h
  refine ⟨symbolName_within around h, hsegments, by rw [hsegments, pointPieces_eq_self_iff],
    fun around' name' h' => ⟨within_eq_within_iff h h', fun hpoints => ?_⟩, ?_, ?_⟩
  · rw [List.forall_mem_append] at hpoints
    rw [within_eq_within_iff h h', pointPieces_eq_self_iff.mpr hpoints.1, pointPieces_eq_self_iff.mpr hpoints.2,
      Prod.mk.injEq]
  · intro files platform scanned hscanned
    rw [← exists_qualifiedName_iff hscanned h, SymbolTable.contains, Ledger.contains_iff, SymbolTable.keys_build,
      List.mem_eraseDups, List.mem_map]
  · intro files table layout path r hr merged hmerged
    have hrep : r.Represents table (OutputRecords.sentTo table layout files path) :=
      OutputRecords.represents_of_get?_route hr
    rw [← exists_qualifiedName_iff hmerged h, hrep.contains_signatures_iff]
    refine exists_congr fun l => ?_
    rw [List.mem_filter, and_assoc, Located.merges, Bool.and_eq_true, beq_iff_eq]

/-- A class in two namespaces inside each other, and a function of its name in a module whose text has a point between
them. -/
def tileFiles : List DeclarationFile :=
  [⟨⟨"in/a.d.ts"⟩, [.namespaceItem "ol" [.namespaceItem "layer" [.declaration (.classDecl ⟨"Tile", []⟩)]]]⟩,
   ⟨⟨"in/b.d.ts"⟩, [.namespaceItem "ol.layer" [.declaration (.function ⟨"Tile", [], none⟩)]]⟩]

/-- The namespaces of the class are found again. A class of the module has the same key in the table, although none is
declared, and a function of the namespaces has one in the record of the module, although none is sent there. -/
theorem identifies_up_to_points_tile :
    let table := SymbolTable.build tileFiles {}
    (within ["ol", "layer"] "Tile").namespaceSegments = ["ol", "layer"] ∧
      (within ["ol", "layer"] "Tile").symbolName = "Tile" ∧
      within ["ol", "layer"] "Tile" = within ["ol.layer"] "Tile" ∧
      within ["ol", "layer"] "Tile" ≠ within ["ol"] "Tile" ∧
      table.contains (within ["ol.layer"] "Tile") = true ∧
      ∃ r, (OutputRecords.route tileFiles table ⟨⟨"in"⟩, ⟨"out"⟩⟩).get? "out/ol.layer/tile.dart" = some r ∧
        r.signatures.contains (within ["ol", "layer"] "Tile") = true := by
  intro table
  have hname : PointFree "Tile" := by decide
  have hsent : OutputRecords.sentTo table ⟨⟨"in"⟩, ⟨"out"⟩⟩ tileFiles "out/ol.layer/tile.dart" ≠ [] := by decide
  have hr := OutputRecords.get?_route_of_sentTo_ne_nil table _ hsent
  obtain ⟨hsymbol, _, hsegments, hsymbols, _, hrecords⟩ := identifies_up_to_points ["ol", "layer"] hname
  obtain ⟨_, _, _, _, htables, _⟩ := identifies_up_to_points ["ol.layer"] hname
  refine ⟨hsegments.mpr (by decide), hsymbol, ?_, ?_, ?_, _, hr, ?_⟩
  · exact (hsymbols _ _ hname).1.mpr (by decide)
  · exact mt ((hsymbols _ _ hname).2 (by decide)).mp (by decide)
  · exact (htables tileFiles {} (by decide)).mpr (by decide)
  · exact (hrecords _ _ _ _ _ hr (by decide)).mpr (by decide)

/-- A text of a file that declares a class in a module whose text holds a point. -/
def dottedModuleText : String := "declare module \"a.b\" { class Foo {} }\n"

/-- The file. -/
def dottedModuleFile : DeclarationFile :=
  ⟨⟨"in/a.d.ts"⟩, [.namespaceItem "a.b" [.declaration (.classDecl ⟨"Foo", []⟩)]]⟩

set_option maxRecDepth 4000 in
/-- **A point in the text of a module is taken for one between namespaces**: the file declares a class in one module and
nothing in namespaces inside each other, but the qualified name of the class gives back two namespaces, and a class
inside of these is found in the table. -/
theorem not_identifies_dottedModule :
    DeclarationFile.read typeScript ⟨"in/a.d.ts"⟩ dottedModuleText = .ok dottedModuleFile ∧
      dottedModuleFile.Declares ["a.b"] (.classDecl ⟨"Foo", []⟩) ∧
        (∀ decl, ¬ dottedModuleFile.Declares ["a", "b"] decl) ∧
      (within ["a.b"] "Foo").namespaceSegments ≠ ["a.b"] ∧ within ["a.b"] "Foo" = within ["a", "b"] "Foo" ∧
      (SymbolTable.build [dottedModuleFile] {}).lookup (within ["a", "b"] "Foo") = some ⟨"in/a.d.ts"⟩ := by
  have hkind : SourceKind.ofPath ⟨"in/a.d.ts"⟩ = .declarations := by decide +kernel
  have hitems : Source.readItems true true dottedModuleText =
      .ok [.statement (.namespaceDecl "a.b" false (some (.block [.statement (.classDecl "Foo" [])])))] := by rfl
  refine ⟨?_, ?_, fun decl h => ?_, by decide, by decide, by decide⟩
  · rw [DeclarationFile.read_eq, typeScript_of_declarations hkind]
    exact congrArg (Except.map _) hitems
  · exact ⟨_, List.mem_cons_self, .inside List.mem_cons_self (.here _)⟩
  · have hmem : (⟨⟨"in/a.d.ts"⟩, ["a", "b"], decl⟩ : Located) ∈ dottedModuleFile.located :=
      DeclarationFile.mem_located.mpr ⟨rfl, h⟩
    have hlocated : dottedModuleFile.located = [⟨⟨"in/a.d.ts"⟩, ["a.b"], .classDecl ⟨"Foo", []⟩⟩] := by decide
    rw [hlocated, List.mem_singleton] at hmem
    have haround : ["a", "b"] = ["a.b"] := congrArg Located.around hmem
    exact absurd haround (by decide)

end QualifiedName

end InteropBindings
