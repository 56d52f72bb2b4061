import InteropBindings.Output.Aggregator
import InteropBindings.Output.DartFile
import InteropBindings.Proofs.Output.Merging

/-!
# How files begin

The first three characters tell a binding file from an aggregator: a binding file begins with an import or a block
(`OutputRecords.opening_file`), an aggregator with a comment or an export. So no aggregator has the text of a binding
file.
-/

namespace InteropBindings

/-- The first three characters of a text. -/
def opening (text : String) : List Char := text.toList.take 3

theorem opening_append {start : String} (h : 3 ≤ start.toList.length) (rest : String) :
    opening (start ++ rest) = opening start := by
  rw [opening, opening, String.toList_append, List.take_append_of_le_length h]

/-- How binding files begin: with a mark, an extension or an import. -/
def bindingOpenings : List (List Char) := [['@', 'J', 'S'], ['e', 'x', 't'], ['i', 'm', 'p']]

/-! ## Aggregators -/

theorem opening_folderAggregator (name : String) (files : List String) :
    opening (folderAggregator name files) ∉ bindingOpenings := by
  unfold folderAggregator
  rw [String.append_assoc, String.append_assoc, String.append_assoc, opening_append (by decide)]
  decide

theorem opening_exportStatement (file : String) : opening (exportStatement file ++ "\n") ∉ bindingOpenings := by
  unfold exportStatement
  rw [String.append_assoc, String.append_assoc, opening_append (by decide)]
  decide

/-! ## Binding files -/

theorem opening_boundTo (name : QualifiedName) (rest : String) : opening (boundTo name ++ rest) = ['@', 'J', 'S'] := by
  simp only [boundTo, String.append_assoc]
  rw [opening_append (by decide)]
  decide

/-- **How blocks begin**: an extension with its keyword, everything else with the mark. -/
theorem Located.opening_of_mem_piece (table : SymbolTable) {all before : List Located} {l : Located} {b : Block}
    (h : b ∈ l.piece all before) (rest : String) : opening (b.text table ++ rest) ∈ bindingOpenings := by
  have hmark : ∀ name more, opening (boundTo name ++ more) ∈ bindingOpenings := by
    intro name more
    rw [opening_boundTo]
    decide
  rcases mem_piece h with ⟨c, _, _, rfl⟩ | ⟨c, _, hf, rfl⟩ | ⟨f, _, rfl⟩ | ⟨l', a, _, _, _, rfl⟩
  · simp only [Block.text, classStub, String.append_assoc]
    exact hmark _ _
  · have hmembers : ((l.fresh before).map (Binding.text table)).isEmpty = false := by
      cases hfresh : l.fresh before with
      | nil => exact absurd hfresh hf
      | cons => rfl
    rw [Block.text, extensionBlock, hmembers, if_neg Bool.false_ne_true]
    simp only [String.append_assoc]
    rw [opening_append (by decide)]
    decide
  · simp only [Block.text, Binding.text, Scope.function, String.append_assoc]
    exact hmark _ _
  · simp only [Block.text, AliasDeclaration.emit, String.append_assoc]
    exact hmark _ _

namespace OutputRecord.Represents

variable {table : SymbolTable} {ls : List Located} {r : OutputRecord}

/-- A record with text has blocks. -/
theorem blocksOf_ne_nil (h : r.Represents table ls) (hempty : r.isEmpty = false) : blocksOf ls ≠ [] := by
  intro hnil
  rw [← flatten_layersOf, List.flatten_eq_nil_iff] at hnil
  have hlayers : layersOf ls = [] := by
    refine List.eq_nil_iff_forall_not_mem.mpr fun piece hpiece => ?_
    obtain ⟨_, hne⟩ := List.mem_filter.mp hpiece
    rw [hnil piece hpiece] at hne
    cases hne
  rw [isEmpty, h.chunks, hlayers] at hempty
  cases hempty

/-- **How binding files begin.** -/
theorem opening_file (h : r.Represents table ls) (hempty : r.isEmpty = false) : opening r.file ∈ bindingOpenings := by
  have hcode : opening r.code ∈ bindingOpenings := by
    obtain ⟨b, rest, hblocks⟩ := List.exists_cons_of_ne_nil (h.blocksOf_ne_nil hempty)
    have hb : b ∈ blocksOf ls := by
      rw [hblocks]
      exact List.mem_cons_self
    obtain ⟨piece, hpiece, hb⟩ := List.mem_flatten.mp hb
    obtain ⟨before, l, _, _, rfl⟩ := mem_piecesAlong hpiece
    rw [h.code_eq, hblocks, List.map_cons, String.join_cons]
    exact Located.opening_of_mem_piece table hb _
  rw [OutputRecord.file, dartFile]
  cases r.imports with
  | nil => simpa using hcode
  | cons i is =>
    rw [List.map_cons, String.join_cons]
    simp only [String.append_assoc]
    rw [opening_append (by decide)]
    decide

end OutputRecord.Represents

theorem OutputRecords.opening_file {files : List DeclarationFile} {table : SymbolTable} {layout : OutputLayout}
    {e : String × OutputRecord} (he : e ∈ (route files table layout).entries) (hempty : e.2.isEmpty = false) :
    opening e.2.file ∈ bindingOpenings :=
  (represents_of_get?_route (get?_route_of_mem_entries he)).opening_file hempty

end InteropBindings
