import InteropBindings.Proofs.Output.Merging

/-!
# Routing a file again

A file that is routed once more finds everything that it declares in the records already.

- a class or a function adds no block, and an alias takes the place that it has, so no declaration adds a piece
  (`Located.piece_eq_nil_of_mem`);
- on the way an alias may fall back to an earlier text, but the last declaration of it is the same at the end
  (`lastAlias_append_again`), so the layers are the same (`layersOf_append_again`);
- symbols keep their signatures and aliases their slots at every step
  (`OutputRecord.Represents.signatures_addAll_of_forall_mem`, `OutputRecord.Represents.slots_addAll_of_forall_mem`).

`OutputRecords.routeFile_idempotent` puts these together.
-/

namespace InteropBindings

/-! ## Pieces of declarations that come again -/

theorem lastAlias_append_again (q : QualifiedName) (ls xs : List Located) :
    lastAlias q (ls ++ xs ++ xs) = lastAlias q (ls ++ xs) := by
  simp only [lastAlias, List.filterMap_append, List.getLast?_append]
  cases (xs.filterMap (Located.aliasBlock? q)).getLast? <;> rfl

namespace Located

/-- Of the declarations after it, a piece depends on the last ones of aliases only. -/
theorem piece_congr {all all' : List Located} (h : ∀ q, lastAlias q all' = lastAlias q all) (before : List Located)
    (l : Located) : l.piece all' before = l.piece all before := by
  cases hd : l.declaration <;> simp only [piece, hd, h]

theorem fresh_eq_nil_of_mem {before : List Located} {l : Located} (hl : l ∈ before) : l.fresh before = [] :=
  firsts_eq_nil Binding.key fun _ hb => List.mem_map_of_mem (List.mem_flatMap_of_mem hl hb)

theorem any_merges_of_mem {before : List Located} {l : Located} (hl : l ∈ before)
    (hs : l.declaration.hasSignatures = true) : before.any (merges l.qualifiedName) = true :=
  List.any_eq_true.mpr ⟨l, hl, (merges_of_hasSignatures hs _).mpr rfl⟩

theorem any_aliases_of_mem {before : List Located} {l : Located} {a : AliasDeclaration} (hl : l ∈ before)
    (hd : l.declaration = .alias a) : before.any (aliases l.qualifiedName) = true :=
  List.any_eq_true.mpr ⟨l, hl, by rw [aliases_alias hd, beq_self_eq_true]⟩

/-- **A declaration that has come before** adds no piece. -/
theorem piece_eq_nil_of_mem (all : List Located) {before : List Located} {l : Located} (hl : l ∈ before) :
    l.piece all before = [] := by
  cases hd : l.declaration with
  | classDecl c =>
    have hmerged := any_merges_of_mem hl (by rw [hd]; rfl)
    simp [piece, hd, hmerged, fresh_eq_nil_of_mem hl]
  | interface name => simp [piece, hd]
  | function f => simp [piece, hd, fresh_eq_nil_of_mem hl]
  | «alias» a => simp [piece, hd, any_aliases_of_mem hl hd]

end Located

theorem piecesAlong_congr {all all' : List Located} (h : ∀ q, lastAlias q all' = lastAlias q all)
    (before ls : List Located) : piecesAlong all' before ls = piecesAlong all before ls := by
  induction ls generalizing before with
  | nil => rfl
  | cons l ls ih => rw [piecesAlong, piecesAlong, Located.piece_congr h, ih]

/-- Declarations that come again have empty pieces. -/
theorem eq_nil_of_mem_piecesAlong {all before xs : List Located} (hxs : ∀ l ∈ xs, l ∈ before) {piece : List Block}
    (h : piece ∈ piecesAlong all before xs) : piece = [] := by
  obtain ⟨pre, l, post, rfl, rfl⟩ := mem_piecesAlong h
  have hl : l ∈ before := hxs l (List.mem_append_right _ List.mem_cons_self)
  exact Located.piece_eq_nil_of_mem all (List.mem_append_left pre hl)

/-- **Declarations that come again add no layer and change none.** -/
theorem layersOf_append_again (ls xs : List Located) : layersOf (ls ++ xs ++ xs) = layersOf (ls ++ xs) := by
  have hxs : ∀ l ∈ xs, l ∈ ls ++ xs := fun l hl => List.mem_append_right ls hl
  have hagain : (piecesAlong (ls ++ xs ++ xs) (ls ++ xs) xs).filter (fun piece => !piece.isEmpty) = [] := by
    rw [List.filter_eq_nil_iff]
    intro piece hpiece
    simp [eq_nil_of_mem_piecesAlong hxs hpiece]
  rw [layersOf, piecesOf, piecesAlong_append, List.nil_append, List.filter_append, hagain, List.append_nil,
    piecesAlong_congr fun q => lastAlias_append_again q ls xs]
  rfl

/-! ## Records that take in declarations again -/

namespace OutputRecord.Represents

variable {table : SymbolTable} {ls : List Located} {l : Located} {r : OutputRecord}

/-- A declaration that has come before leaves the signatures as they are. -/
theorem signatures_add_of_mem (h : r.Represents table ls) (hl : l ∈ ls) :
    (r.add (OutputRecords.scopeOf table l) l.declaration).signatures = r.signatures := by
  cases hd : l.declaration with
  | classDecl c =>
    have hname : (OutputRecords.scopeOf table l).qualify c.name = l.qualifiedName := qualify_scopeOf (by rw [hd]; rfl)
    have hfresh : c.freshMembers r.signatures l.qualifiedName = [] := by
      have hnone := Located.fresh_eq_nil_of_mem hl
      rwa [fresh_eq_freshMembers hd h.signatures, List.map_eq_nil_iff] at hnone
    -- the class writes the signatures that its symbol has already
    show c.signatures _ r.signatures = r.signatures
    rw [ClassDeclaration.signatures, hname, hfresh, List.map_nil, List.append_nil]
    refine Ledger.put_of_get? ?_
    rw [MemberSignatures.of, h.signatures, recordedSignatures, if_pos (Located.any_merges_of_mem hl (by rw [hd]; rfl))]
    rfl
  | interface name => rfl
  | function f =>
    have hknown : f.isKnown (OutputRecords.scopeOf table l) r.signatures = true := by
      rw [isKnown_iff hd h.signatures, mem_signaturesIn]
      have hb : (⟨l, .function f⟩ : Binding) ∈ l.bindings := by simp [Located.bindings, hd]
      exact List.mem_map_of_mem (List.mem_flatMap_of_mem hl hb)
    show f.signatures _ r.signatures = r.signatures
    rw [FunctionDeclaration.signatures, if_pos hknown]
  | «alias» a =>
    show (r.setAlias _ _).signatures = r.signatures
    rw [setAlias]
    split <;> rfl

/-- A declaration that has come before leaves the slots as they are. -/
theorem slots_add_of_mem (h : r.Represents table ls) (hl : l ∈ ls) :
    (r.add (OutputRecords.scopeOf table l) l.declaration).slots = r.slots := by
  cases hd : l.declaration with
  | classDecl c => exact slots_push r _
  | interface name => rfl
  | function f => exact slots_push r _
  | «alias» a =>
    have hname : (OutputRecords.scopeOf table l).qualify a.name = l.qualifiedName := qualify_scopeOf (by rw [hd]; rfl)
    have hsome := h.isSome_slots l.qualifiedName
    rw [Located.any_aliases_of_mem hl hd] at hsome
    obtain ⟨slot, hslot⟩ := Option.isSome_iff_exists.mp hsome
    show (r.setAlias _ _).slots = r.slots
    simp only [setAlias, hname, hslot]

/-- Declarations that have come before leave the signatures as they are. -/
theorem signatures_addAll_of_forall_mem (h : r.Represents table ls) {xs : List Located} (hxs : ∀ l ∈ xs, l ∈ ls) :
    (r.addAll table xs).signatures = r.signatures := by
  induction xs generalizing ls r with
  | nil => rfl
  | cons x xs ih =>
    have hrest : ∀ l ∈ xs, l ∈ ls ++ [x] := fun l hl => List.mem_append_left _ (hxs l (List.mem_cons_of_mem _ hl))
    exact (ih (h.add x) hrest).trans (h.signatures_add_of_mem (hxs x List.mem_cons_self))

/-- Declarations that have come before leave the slots as they are. -/
theorem slots_addAll_of_forall_mem (h : r.Represents table ls) {xs : List Located} (hxs : ∀ l ∈ xs, l ∈ ls) :
    (r.addAll table xs).slots = r.slots := by
  induction xs generalizing ls r with
  | nil => rfl
  | cons x xs ih =>
    have hrest : ∀ l ∈ xs, l ∈ ls ++ [x] := fun l hl => List.mem_append_left _ (hxs l (List.mem_cons_of_mem _ hl))
    exact (ih (h.add x) hrest).trans (h.slots_add_of_mem (hxs x List.mem_cons_self))

/-- **A record that has taken in declarations last** stays the same when it takes them in again. -/
theorem addAll_again {xs : List Located} (h : r.Represents table (ls ++ xs)) : r.addAll table xs = r := by
  have hxs : ∀ l ∈ xs, l ∈ ls ++ xs := fun l hl => List.mem_append_right ls hl
  have hchunks : (r.addAll table xs).chunks = r.chunks := by
    rw [(h.addAll xs).chunks, layersOf_append_again, h.chunks]
  have hslots := h.slots_addAll_of_forall_mem hxs
  have hsignatures := h.signatures_addAll_of_forall_mem hxs
  cases hr : r.addAll table xs with
  | mk chunks slots signatures =>
    rw [hr] at hchunks hslots hsignatures
    cases hchunks
    cases hslots
    cases hsignatures
    rfl

end OutputRecord.Represents

/-! ## Files that are routed again -/

namespace OutputRecords

variable (table : SymbolTable) (layout : OutputLayout)

theorem visited_append (files more : List DeclarationFile) :
    visited table (files ++ more) = visited table files ++ visited table more := List.flatMap_append

theorem sentTo_append (files more : List DeclarationFile) (path : String) :
    sentTo table layout (files ++ more) path = sentTo table layout files path ++ sentTo table layout more path := by
  rw [sentTo, visited_append, List.filter_append]
  rfl

/-- A further file is routed after the others. -/
theorem route_append_singleton (files : List DeclarationFile) (file : DeclarationFile) :
    route (files ++ [file]) table layout = routeFile table layout (route files table layout) file := by
  rw [route, List.foldl_append]
  rfl

/-- **Routing a file twice in a row is routing it once**: whatever files have been routed before, the second time leaves
all records as they are, with their paths in order and everything that they hold. -/
theorem routeFile_idempotent (files : List DeclarationFile) (file : DeclarationFile) :
    let once := routeFile table layout (route files table layout) file
    routeFile table layout once file = once := by
  intro once
  change routeFile table layout (routeFile table layout (route files table layout) file) file =
    routeFile table layout (route files table layout) file
  rw [← route_append_singleton, ← route_append_singleton]
  refine Ledger.ext_of_keys (nodup_keys_route table layout _) ?_ fun path _ => ?_
  · have hknown : ((visited table [file]).map layout.pathOf).removeAll
        ((visited table (files ++ [file])).map layout.pathOf) = [] := by
      rw [visited_append, List.map_append, List.removeAll, List.filter_eq_nil_iff]
      intro path hpath
      simp [List.mem_map.mp hpath]
    rw [keys_route, keys_route, visited_append table (files ++ [file]), List.map_append, List.eraseDups_append, hknown]
    simp
  · rw [get?_route, get?_route, sentTo_append table layout (files ++ [file]), sentTo_append table layout files]
    have hrep := OutputRecord.represents_addAll table (sentTo table layout files path ++
      sentTo table layout [file] path)
    have hagain := hrep.addAll_again
    rw [OutputRecord.addAll, OutputRecord.addAll, ← List.foldl_append] at hagain
    by_cases hnil : sentTo table layout files path ++ sentTo table layout [file] path = []
    · rw [hnil, (List.append_eq_nil_iff.mp hnil).2, List.append_nil]
    · rw [if_neg hnil, if_neg fun he => hnil (List.append_eq_nil_iff.mp he).1]
      exact congrArg some hagain

end OutputRecords

end InteropBindings
