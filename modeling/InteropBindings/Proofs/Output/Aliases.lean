import InteropBindings.Proofs.Output.Merging

/-!
# Type aliases in a record

A type alias has one block in a record, however often it is declared. The block stands where the alias is declared first
and says what it is declared to be last.

- the alias blocks of a record are those of last declarations (`alias_mem_blocksOf_iff`);
- each has a single place among the blocks (`blocksOf_split_alias`);
- a record keeps the place of every alias in a slot, and the slots stay true to the chunks
  (`OutputRecord.Represents.wellSlotted`).
-/

namespace InteropBindings

/-- Whether a declaration is the last one of its type alias among some declarations. -/
def IsLastAlias (ls : List Located) (l : Located) (a : AliasDeclaration) : Prop :=
  l.declaration = .alias a ∧ ∃ before after, ls = before ++ l :: after ∧
    after.any (Located.aliases l.qualifiedName) = false

/-! ## First and last declarations -/

/-- The blocks of declarations as an alias are none exactly where the alias is not declared. -/
theorem filterMap_aliasBlock?_eq_nil_iff {q : QualifiedName} {ls : List Located} :
    ls.filterMap (Located.aliasBlock? q) = [] ↔ ls.any (Located.aliases q) = false := by
  rw [List.filterMap_eq_nil_iff, List.any_eq_false]
  simp [Located.aliases]

/-- What an alias is declared to be last is said by its last declaration. -/
theorem mem_lastAlias_iff {q : QualifiedName} {ls : List Located} {b : Block} :
    b ∈ lastAlias q ls ↔ ∃ l a, IsLastAlias ls l a ∧ l.qualifiedName = q ∧ b = .alias l a := by
  rw [lastAlias, Option.mem_toList, List.getLast?_eq_some_iff]
  constructor
  · rintro ⟨bs, hbs⟩
    obtain ⟨before, rest, rfl, _, hrest⟩ := List.filterMap_eq_append_iff.mp hbs
    obtain ⟨skipped, l, after, rfl, _, hl, hafter⟩ := List.filterMap_eq_cons_iff.mp hrest
    obtain ⟨a, hd, rfl, rfl⟩ := Located.aliasBlock?_eq_some_iff.mp hl
    have hnone := filterMap_aliasBlock?_eq_nil_iff.mp hafter
    exact ⟨l, a, ⟨hd, before ++ skipped, after, (List.append_assoc ..).symm, hnone⟩, rfl, rfl⟩
  · rintro ⟨l, a, ⟨hd, before, after, rfl, hafter⟩, rfl, rfl⟩
    have hl : l.aliasBlock? l.qualifiedName = some (.alias l a) :=
      Located.aliasBlock?_eq_some_iff.mpr ⟨a, hd, rfl, rfl⟩
    refine ⟨before.filterMap (Located.aliasBlock? l.qualifiedName), ?_⟩
    rw [List.filterMap_append, List.filterMap_cons_some hl, filterMap_aliasBlock?_eq_nil_iff.mpr hafter]

/-- An alias that is declared has one last declaration. -/
theorem exists_lastAlias_eq {q : QualifiedName} {ls : List Located} (h : ls.any (Located.aliases q) = true) :
    ∃ l a, IsLastAlias ls l a ∧ l.qualifiedName = q ∧ lastAlias q ls = [.alias l a] := by
  have hany := any_isAliasOf_lastAlias q q ls
  rw [h, beq_self_eq_true, Bool.true_and, List.any_eq_true] at hany
  obtain ⟨b, hb, _⟩ := hany
  obtain ⟨l, a, hlast, hq, rfl⟩ := mem_lastAlias_iff.mp hb
  refine ⟨l, a, hlast, hq, ?_⟩
  rw [lastAlias, Option.mem_toList] at hb
  rw [lastAlias, hb]
  rfl

/-- An alias that is declared has a first declaration. -/
theorem exists_first_alias {q : QualifiedName} {ls : List Located} (h : ls.any (Located.aliases q) = true) :
    ∃ before first after, ls = before ++ first :: after ∧ first.aliases q = true ∧
      before.any (Located.aliases q) = false := by
  have hsome : (ls.find? (Located.aliases q)).isSome := by
    rw [List.find?_isSome]
    exact List.any_eq_true.mp h
  obtain ⟨first, hfirst⟩ := Option.isSome_iff_exists.mp hsome
  obtain ⟨hq, before, after, hls, hbefore⟩ := List.find?_eq_some_iff_append.mp hfirst
  refine ⟨before, first, after, hls, hq, ?_⟩
  rw [List.any_eq_false]
  simpa using hbefore

/-! ## The block of an alias -/

/-- The piece of a first declaration is the block of the last one. -/
theorem Located.piece_of_first {q : QualifiedName} {before : List Located} {first : Located} (all : List Located)
    (hq : first.aliases q = true) (hbefore : before.any (aliases q) = false) :
    first.piece all before = lastAlias q all := by
  obtain ⟨b, hb⟩ := Option.isSome_iff_exists.mp hq
  obtain ⟨a, hd, rfl, _⟩ := aliasBlock?_eq_some_iff.mp hb
  simp [piece, hd, hbefore]

/-- An alias block in a piece is what the alias of that piece is declared to be last. -/
theorem Located.mem_lastAlias_of_alias_mem_piece {all before : List Located} {first l : Located} {a : AliasDeclaration}
    (h : .alias l a ∈ first.piece all before) : .alias l a ∈ lastAlias first.qualifiedName all := by
  cases hd : first.declaration with
  | classDecl c => simp [piece, hd] at h
  | interface name => simp [piece, hd] at h
  | function f => simp [piece, hd] at h
  | «alias» a =>
    simp only [piece, hd] at h
    split at h
    · cases h
    · exact h

/-- Where an alias is not declared, or has been before, there is no block of it. -/
theorem not_isAliasOf_of_mem_pieces {q : QualifiedName} {all before ls : List Located} (hls : ∀ l ∈ ls, l ∈ all)
    (h : ls.any (Located.aliases q) = false ∨ before.any (Located.aliases q) = true) {b : Block}
    (hb : b ∈ (piecesAlong all before ls).flatten) : b.isAliasOf q = false := by
  have hnone : (piecesAlong all before ls).any (fun piece => piece.any (Block.isAliasOf q)) = false := by
    rw [any_isAliasOf_piecesAlong q before hls]
    rcases h with h | h
    · rw [h, Bool.false_and]
    · rw [h, Bool.not_true, Bool.and_false]
  obtain ⟨piece, hpiece, hb⟩ := List.mem_flatten.mp hb
  have hno := List.any_eq_false.mp hnone piece hpiece
  rw [Bool.not_eq_true, List.any_eq_false] at hno
  simpa using hno b hb

/-- **An alias has one block**: it takes the place of the first declaration and has the text of the last one. -/
theorem blocksOf_split_alias {q : QualifiedName} {before : List Located} {first : Located} (after : List Located)
    (hq : first.aliases q = true) (hbefore : before.any (Located.aliases q) = false) :
    let ls := before ++ first :: after
    let pre := (piecesAlong ls [] before).flatten
    let post := (piecesAlong ls (before ++ [first]) after).flatten
    ∃ last a, IsLastAlias ls last a ∧ last.qualifiedName = q ∧ blocksOf ls = pre ++ .alias last a :: post ∧
      ∀ b ∈ pre ++ post, b.isAliasOf q = false := by
  intro ls pre post
  have hany : ls.any (Located.aliases q) = true := by simp [ls, hq]
  obtain ⟨last, a, hlast, hname, heq⟩ := exists_lastAlias_eq hany
  have hpiece : first.piece ls before = [.alias last a] := (Located.piece_of_first ls hq hbefore).trans heq
  refine ⟨last, a, hlast, hname, ?_, ?_⟩
  · rw [blocksOf, piecesOf, piecesAlong_split, hpiece, List.flatten_append, List.flatten_cons, List.singleton_append]
  · intro b hb
    rcases List.mem_append.mp hb with hb | hb
    · exact not_isAliasOf_of_mem_pieces (fun l hl => List.mem_append_left _ hl) (.inl hbefore) hb
    · have hafter : ∀ l ∈ after, l ∈ ls := fun l hl => List.mem_append_right _ (List.mem_cons_of_mem _ hl)
      exact not_isAliasOf_of_mem_pieces hafter (.inr (by simp [hq])) hb

/-- The alias blocks of declarations are those of last declarations. -/
theorem alias_mem_blocksOf_iff {ls : List Located} {l : Located} {a : AliasDeclaration} :
    .alias l a ∈ blocksOf ls ↔ IsLastAlias ls l a := by
  constructor
  · intro hb
    obtain ⟨piece, hpiece, hb⟩ := List.mem_flatten.mp hb
    obtain ⟨before, first, after, _, rfl⟩ := mem_piecesAlong hpiece
    obtain ⟨l', a', hlast, _, he⟩ := mem_lastAlias_iff.mp (Located.mem_lastAlias_of_alias_mem_piece hb)
    cases he
    exact hlast
  · intro hlast
    have hany : ls.any (Located.aliases l.qualifiedName) = true := by
      obtain ⟨hd, before, after, rfl, _⟩ := hlast
      simp [Located.aliases_alias hd]
    obtain ⟨before, first, after, rfl, hq, hbefore⟩ := exists_first_alias hany
    have hmem : .alias l a ∈ first.piece (before ++ first :: after) before := by
      rw [Located.piece_of_first _ hq hbefore]
      exact mem_lastAlias_iff.mpr ⟨l, a, hlast, rfl, rfl⟩
    rw [blocksOf, piecesOf, piecesAlong_split]
    exact List.mem_flatten.mpr ⟨_, List.mem_append_right _ List.mem_cons_self, hmem⟩

/-! ## Slots -/

/-- A record whose slots are true to its chunks. -/
structure OutputRecord.WellSlotted (table : SymbolTable) (r : OutputRecord) : Prop where
  /-- A slot is the place of a chunk. -/
  lt_length : ∀ q slot, r.slots.get? q = some slot → slot < r.chunks.length
  /-- The chunk in the slot of a name is a type alias of that name. -/
  holds : ∀ q slot, r.slots.get? q = some slot → ∃ (l : Located) (a : AliasDeclaration), l.declaration = .alias a ∧
    l.qualifiedName = q ∧ r.chunks[slot]? = some (a.emit (OutputRecords.scopeOf table l))
  /-- Different names have different slots. -/
  name_unique : ∀ q q' slot, r.slots.get? q = some slot → r.slots.get? q' = some slot → q = q'

namespace OutputRecord.Represents

variable {table : SymbolTable} {ls : List Located} {r : OutputRecord}

/-- The layer in the slot of a name is the last declaration of the alias. -/
theorem getElem?_layersOf (h : r.Represents table ls) {q : QualifiedName} {slot : Nat}
    (hslot : r.slots.get? q = some slot) :
    ∃ l a, IsLastAlias ls l a ∧ l.qualifiedName = q ∧ (layersOf ls)[slot]? = some [.alias l a] := by
  rw [h.slots, List.findIdx?_eq_some_iff_getElem] at hslot
  obtain ⟨hlt, hany, _⟩ := hslot
  have hmem : (layersOf ls)[slot] ∈ layersOf ls := List.getElem_mem hlt
  obtain ⟨before, first, after, hls, hpiece⟩ := mem_piecesAlong (List.mem_filter.mp hmem).1
  rw [List.nil_append] at hpiece
  have hfirst : first ∈ ls := hls ▸ List.mem_append_right _ List.mem_cons_self
  rw [hpiece, Located.any_isAliasOf_piece q before hfirst, Bool.and_eq_true, Bool.not_eq_true'] at hany
  have hls' : ls.any (Located.aliases q) = true := List.any_eq_true.mpr ⟨first, hfirst, hany.1⟩
  obtain ⟨l, a, hlast, hq, heq⟩ := exists_lastAlias_eq hls'
  refine ⟨l, a, hlast, hq, ?_⟩
  rw [List.getElem?_eq_getElem hlt, hpiece, Located.piece_of_first ls hany.1 hany.2, heq]

/-- **The slots of a record are true to its chunks.** -/
theorem wellSlotted (h : r.Represents table ls) : r.WellSlotted table where
  lt_length q slot hslot := by
    obtain ⟨l, a, _, _, hlayer⟩ := h.getElem?_layersOf hslot
    obtain ⟨hlt, _⟩ := List.getElem?_eq_some_iff.mp hlayer
    rwa [h.chunks, List.length_map]
  holds q slot hslot := by
    obtain ⟨l, a, ⟨hd, _⟩, hq, hlayer⟩ := h.getElem?_layersOf hslot
    refine ⟨l, a, hd, hq, ?_⟩
    rw [h.chunks, List.getElem?_map, hlayer]
    simp [chunkOf, Block.text, Block.imports]
  name_unique q q' slot hslot hslot' := by
    obtain ⟨l, a, _, hq, hlayer⟩ := h.getElem?_layersOf hslot
    obtain ⟨l', a', _, hq', hlayer'⟩ := h.getElem?_layersOf hslot'
    have he : [Block.alias l a] = [.alias l' a'] := Option.some.inj (hlayer.symm.trans hlayer')
    cases he
    rw [← hq, hq']

end OutputRecord.Represents

end InteropBindings
