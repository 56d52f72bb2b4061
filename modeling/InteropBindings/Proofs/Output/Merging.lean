import InteropBindings.Proofs.Output.Contents

/-!
# Merged declarations

Classes and functions that share a name are merged in the record that they are sent to.

- the text of a record is that of the blocks of what is sent to it (`OutputRecord.Represents.code_eq`);
- the blocks bind the first of everything that is declared under one signature (`bindings_blocksOf`);
- both together say what a record of a run holds (`OutputRecords.route_merges_signatures`).
-/

namespace InteropBindings

theorem join_map_join (parts : List (List String)) :
    String.join (parts.map String.join) = String.join parts.flatten := by
  induction parts with
  | nil => rfl
  | cons part parts ih => rw [List.map_cons, String.join_cons, ih, List.flatten_cons, String.join_append]

/-! ## Bindings of blocks -/

/-- **The blocks bind the first of everything that is declared under one signature.** -/
theorem bindings_blocksOf (ls : List Located) :
    (blocksOf ls).flatMap Block.bindings = firsts Binding.key [] (ls.flatMap Located.bindings) :=
  bindings_piecesAlong ls [] ls

/-- What is bound under a signature is declared under it first. -/
theorem filter_bindings_blocksOf (k : QualifiedName × String) (ls : List Located) :
    ((blocksOf ls).flatMap Block.bindings).filter (fun b => b.key = k) =
      ((ls.flatMap Located.bindings).find? fun b => b.key = k).toList := by
  rw [bindings_blocksOf, filter_firsts, if_neg List.not_mem_nil]

namespace OutputRecord.Represents

variable {table : SymbolTable} {ls : List Located} {r : OutputRecord}

theorem code_eq (h : r.Represents table ls) : r.code = String.join ((blocksOf ls).map (Block.text table)) := by
  rw [code, h.chunks, ← flatten_layersOf, List.map_flatten, ← join_map_join, List.map_map, List.map_map]
  rfl

/-- A symbol has signatures when a class or a function of it has been declared. -/
theorem contains_signatures_iff (h : r.Represents table ls) (q : QualifiedName) :
    r.signatures.contains q = true ↔ ∃ l ∈ ls, l.merges q = true := by
  rw [Ledger.contains, h.signatures, recordedSignatures, ← List.any_eq_true]
  split
  · next hany => simp [hany]
  · next hany => simp [hany]

/-- The signatures of a symbol are those that are declared, once each. -/
theorem of_signatures (h : r.Represents table ls) (q : QualifiedName) :
    r.signatures.of q = (signaturesIn q ls).eraseDups := by
  rw [MemberSignatures.of, h.signatures, getD_recordedSignatures]

theorem signature_mem_of_mem_bindings (h : r.Represents table ls) {b : Binding}
    (hb : b ∈ (blocksOf ls).flatMap Block.bindings) : b.signature ∈ r.signatures.of b.name := by
  rw [bindings_blocksOf] at hb
  rw [h.of_signatures, List.mem_eraseDups, mem_signaturesIn]
  exact List.mem_map_of_mem (mem_of_mem_firsts _ hb).1

/-- **A signature is bound once, as it is declared first.** -/
theorem exists_unique_binding (h : r.Represents table ls) {q : QualifiedName} {s : String}
    (hs : s ∈ r.signatures.of q) :
    ∃ b, (ls.flatMap Located.bindings).find? (fun b => b.key = (q, s)) = some b ∧
      ((blocksOf ls).flatMap Block.bindings).filter (fun b => b.key = (q, s)) = [b] := by
  rw [h.of_signatures, List.mem_eraseDups, mem_signaturesIn] at hs
  obtain ⟨b₀, hb₀, hk⟩ := List.mem_map.mp hs
  have hsome : ((ls.flatMap Located.bindings).find? fun b => b.key = (q, s)).isSome := by
    rw [List.find?_isSome]
    exact ⟨b₀, hb₀, by simpa using hk⟩
  obtain ⟨b, hb⟩ := Option.isSome_iff_exists.mp hsome
  exact ⟨b, hb, by rw [filter_bindings_blocksOf, hb]; rfl⟩

end OutputRecord.Represents

namespace OutputRecords

/-- **Merging in a record of a run.** Of the classes and functions `ls` that are sent to the path of a record, in the
order in which they are visited:

- the record has signatures for exactly their symbols, and for each symbol all of its signatures, once each and in
  order;
- its text is that of the blocks of `ls`, and these bind what `ls` declares, in order and without repetitions: every
  recorded signature once, as it is declared first, and nothing else;
- each class of `ls` has at most one extension, with all of its members that are not bound before, in order, and there
  are no other extensions. -/
theorem route_merges_signatures {files : List DeclarationFile} {table : SymbolTable} {layout : OutputLayout}
    {path : String} {r : OutputRecord} (h : (route files table layout).get? path = some r) :
    let ls := sentTo table layout files path
    (∀ q, r.signatures.contains q = true ↔ ∃ l ∈ ls, l.declaration.hasSignatures = true ∧ l.qualifiedName = q) ∧
    (∀ q, r.signatures.of q = (signaturesIn q ls).eraseDups) ∧
    r.code = String.join ((blocksOf ls).map (Block.text table)) ∧
    (blocksOf ls).flatMap Block.bindings = (ls.flatMap Located.bindings).eraseDupsBy (fun b b' => b.key = b'.key) ∧
    (∀ q, ∀ s ∈ r.signatures.of q, ∃ b, (ls.flatMap Located.bindings).find? (fun b => b.key = (q, s)) = some b ∧
      ((blocksOf ls).flatMap Block.bindings).filter (fun b => b.key = (q, s)) = [b]) ∧
    (∀ b ∈ (blocksOf ls).flatMap Block.bindings, b.signature ∈ r.signatures.of b.name) ∧
    (∀ before l after, ls = before ++ l :: after → ∃ piece, (piecesOf ls)[before.length]? = some piece ∧
      piece.filter Block.isExtension = match l.declaration with
        | .classDecl c => if l.fresh before = [] then [] else [.extension l.qualifiedName c.name (l.fresh before)]
        | _ => []) := by
  intro ls
  have hr : r.Represents table ls := by
    rw [eq_addAll_of_get?_route table layout h]
    exact OutputRecord.represents_addAll table ls
  refine ⟨fun q => ?_, hr.of_signatures, hr.code_eq, ?_, fun q s hs => hr.exists_unique_binding hs,
    fun b hb => hr.signature_mem_of_mem_bindings hb, fun before l after hls => ?_⟩
  · rw [hr.contains_signatures_iff]
    exact exists_congr fun l => and_congr_right fun _ => by rw [Located.merges, Bool.and_eq_true, beq_iff_eq]
  · rw [bindings_blocksOf, firsts_nil_seen]
    rfl
  · rw [hls]
    exact ⟨_, getElem?_piecesOf before after l, Located.filter_isExtension_piece _ before l⟩

/-- Files that declare one class twice, one of its members three times, and a function of the same name. -/
def mergingFiles : List DeclarationFile :=
  [⟨⟨"in/a.d.ts"⟩, [.namespaceItem "app"
     [.declaration (.classDecl ⟨"Map", [.property "id" (some (.keyword .string)) true, .method "get" [] none]⟩)]]⟩,
   ⟨⟨"in/b.d.ts"⟩, [.namespaceItem "app"
     [.declaration (.function ⟨"Map", [], none⟩),
      .declaration (.classDecl ⟨"Map", [.method "get" [] (some (.keyword .number)), .method "set" [] none,
        .method "set" [] (some (.keyword .number))]⟩)]]⟩]

/-- The members are bound once each, as the first class or function has them. -/
theorem route_merges_signatures_mergingFiles :
    let table := SymbolTable.build mergingFiles {}
    let layout : OutputLayout := ⟨⟨"in"⟩, ⟨"out"⟩⟩
    ∃ r, (route mergingFiles table layout).get? "out/app/map.dart" = some r ∧
      r.signatures.of ⟨"app.Map"⟩ = ["get id", "get()", "Map()", "set()"] ∧
      r.code = classStub ⟨"app.Map"⟩ "Map" ++
        "extension MapExtension on Map \x7b\n  external JSString get id;\n  external JSObject get();\n\x7d\n\n" ++
        "@JS('app.Map')\nexternal JSObject Map();\n\n" ++
        "extension MapExtension on Map \x7b\n  external JSObject set();\n\x7d\n\n" := by
  intro table layout
  have hsent : sentTo table layout mergingFiles "out/app/map.dart" ≠ [] := by decide
  have hr := get?_route_of_sentTo_ne_nil table layout hsent
  obtain ⟨_, hsignatures, hcode, _⟩ := route_merges_signatures hr
  refine ⟨_, hr, ?_, ?_⟩
  · rw [hsignatures]
    decide
  · rw [hcode]
    decide +kernel

end OutputRecords

end InteropBindings
