import InteropBindings.Proofs.Output.Blocks
import InteropBindings.Proofs.Output.Routing

/-!
# Contents of a record

A record that has taken in some declarations holds the pieces of these declarations and nothing else
(`OutputRecord.Represents`):

- what a class or a function adds is its piece, after whatever has been declared before (`emit_classDecl`,
  `emit_function`);
- one more declaration keeps the relation (`OutputRecord.Represents.add`), and so does a run over all of them
  (`OutputRecord.represents_addAll`, `OutputRecords.represents_of_get?_route`).
-/

namespace InteropBindings

/-! ## Layers -/

/-- The pieces that hold something, one for each chunk of a record. -/
def layersOf (ls : List Located) : List (List Block) := (piecesOf ls).filter fun piece => !piece.isEmpty

/-- The signatures of a symbol in a record, once each, if any declaration has put some there. -/
def recordedSignatures (q : QualifiedName) (ls : List Located) : Option (List String) :=
  if ls.any (Located.merges q) then some (signaturesIn q ls).eraseDups else none

/-- The layers make up all blocks. -/
theorem flatten_layersOf (ls : List Located) : (layersOf ls).flatten = blocksOf ls := by
  rw [layersOf, blocksOf]
  induction piecesOf ls with
  | nil => rfl
  | cons piece pieces ih =>
    cases piece with
    | nil => simpa using ih
    | cons b bs => simp [ih]

theorem piecesOf_append_of_not_aliases {l : Located} (h : ∀ q, l.aliases q = false) (ls : List Located) :
    piecesOf (ls ++ [l]) = piecesOf ls ++ [l.piece ls ls] := by
  have hpieces : ∀ before xs, piecesAlong (ls ++ [l]) before xs = piecesAlong ls before xs := by
    intro before xs
    induction xs generalizing before with
    | nil => rfl
    | cons x xs ih => rw [piecesAlong, piecesAlong, ih, Located.piece_append_of_not_aliases h]
  rw [piecesOf, piecesAlong_append, hpieces, hpieces, List.nil_append]
  rfl

/-- The pieces of one more declaration of a type alias. -/
theorem piecesOf_append_alias {l : Located} {a : AliasDeclaration} (hd : l.declaration = .alias a) (ls : List Located) :
    piecesOf (ls ++ [l]) =
      (piecesOf ls).map (l.replaceIn a) ++ [if ls.any (Located.aliases l.qualifiedName) then [] else [.alias l a]] := by
  have hpieces : ∀ before xs, (∀ x ∈ xs, x ∈ ls) →
      piecesAlong (ls ++ [l]) before xs = (piecesAlong ls before xs).map (l.replaceIn a) := by
    intro before xs hxs
    induction xs generalizing before with
    | nil => rfl
    | cons x xs ih =>
      have hx : x ∈ ls := hxs x List.mem_cons_self
      have hxs' : ∀ y ∈ xs, y ∈ ls := fun y hy => hxs y (List.mem_cons_of_mem _ hy)
      rw [piecesAlong, piecesAlong, List.map_cons, Located.piece_append_alias hd before hx, ih _ hxs']
  have hlast : lastAlias l.qualifiedName (ls ++ [l]) = [.alias l a] := by
    rw [lastAlias_append, Located.aliasBlock?_eq_some_iff.mpr ⟨a, hd, rfl, rfl⟩]
  rw [piecesOf, piecesAlong_append, hpieces [] ls fun _ h => h, List.nil_append]
  simp [piecesAlong, piecesOf, Located.piece, hd, hlast]

theorem layersOf_append_of_not_aliases {l : Located} (h : ∀ q, l.aliases q = false) (ls : List Located) :
    layersOf (ls ++ [l]) = layersOf ls ++ if l.piece ls ls = [] then [] else [l.piece ls ls] := by
  unfold layersOf
  rw [piecesOf_append_of_not_aliases h, List.filter_append]
  split
  · next hp => simp [hp]
  · next hp => simp [hp]

/-- The layers after a type alias. -/
theorem layersOf_append_alias {l : Located} {a : AliasDeclaration} (hd : l.declaration = .alias a) (ls : List Located) :
    layersOf (ls ++ [l]) =
      (layersOf ls).map (l.replaceIn a) ++ if ls.any (Located.aliases l.qualifiedName) then [] else [[.alias l a]] := by
  have hempty : ∀ piece, (l.replaceIn a piece).isEmpty = piece.isEmpty := by
    intro piece
    unfold Located.replaceIn
    cases piece with
    | nil => rfl
    | cons b bs => split <;> rfl
  unfold layersOf
  rw [piecesOf_append_alias hd, List.filter_append, List.filter_map]
  congr 1
  · simp only [Function.comp_def, hempty]
  · split <;> rfl

/-- The layers hold the type aliases that are declared. -/
theorem any_layersOf (q : QualifiedName) (ls : List Located) :
    (layersOf ls).any (fun piece => piece.any (Block.isAliasOf q)) = ls.any (Located.aliases q) := by
  have h := any_isAliasOf_piecesAlong q [] fun l (hl : l ∈ ls) => hl
  rw [List.any_nil, Bool.not_false, Bool.and_true] at h
  rw [layersOf, List.any_filter, ← h]
  congr 1
  funext piece
  cases piece <;> simp

theorem pairwise_layersOf (q : QualifiedName) (ls : List Located) :
    (layersOf ls).Pairwise fun piece piece' => piece.any (Block.isAliasOf q) → ¬ piece'.any (Block.isAliasOf q) :=
  (pairwise_piecesAlong q [] fun _ h => h).filter _

/-- Replacing a type alias moves no type alias. -/
theorem any_isAliasOf_replaceIn {ls : List Located} {piece : List Block} (hpiece : piece ∈ layersOf ls) {l : Located}
    {a : AliasDeclaration} (hd : l.declaration = .alias a) (q : QualifiedName) :
    (l.replaceIn a piece).any (Block.isAliasOf q) = piece.any (Block.isAliasOf q) := by
  obtain ⟨before, l', after, hls, rfl⟩ := mem_piecesAlong (List.mem_filter.mp hpiece).1
  have hl' : l' ∈ ls := hls ▸ List.mem_append_right _ List.mem_cons_self
  have hl'' : l' ∈ ls ++ [l] := List.mem_append_left _ hl'
  -- the piece is that of the same declaration, among more of them
  rw [← Located.piece_append_alias hd _ hl', Located.any_isAliasOf_piece q _ hl', Located.any_isAliasOf_piece q _ hl'']

theorem findIdx?_congr {α : Type} {p p' : α → Bool} {xs : List α} (h : ∀ x ∈ xs, p x = p' x) :
    xs.findIdx? p = xs.findIdx? p' := by
  induction xs with
  | nil => rfl
  | cons x xs ih =>
    rw [List.findIdx?_cons, List.findIdx?_cons, h x List.mem_cons_self, ih fun y hy => h y (List.mem_cons_of_mem _ hy)]

/-- Where the elements with a property come once, the first of them is replaced by replacing all. -/
theorem set_findIdx?_eq_map {α : Type} {p : α → Bool} {xs : List α} {i : Nat} (y : α)
    (hp : xs.Pairwise fun x x' => p x → ¬ p x') (h : xs.findIdx? p = some i) :
    xs.set i y = xs.map fun x => if p x then y else x := by
  induction xs generalizing i with
  | nil => cases h
  | cons x xs ih =>
    obtain ⟨hx, hp⟩ := List.pairwise_cons.mp hp
    rw [List.findIdx?_cons] at h
    by_cases hpx : p x = true
    · rw [if_pos hpx] at h
      cases h
      have hid : xs.map (fun x => if p x then y else x) = xs :=
        (List.map_congr_left fun x' hx' => if_neg (hx x' hx' hpx)).trans (List.map_id xs)
      rw [List.set_cons_zero, List.map_cons, if_pos hpx, hid]
    · rw [if_neg hpx] at h
      obtain ⟨j, hj, rfl⟩ := Option.map_eq_some_iff.mp h
      rw [List.set_cons_succ, List.map_cons, if_neg hpx, ih hp hj]

/-! ## What a declaration adds -/

/-- The members that are new are the first ones with their signatures. -/
theorem Member.fresh_eq_firsts (seen : List String) (members : List Member) :
    Member.fresh seen members = firsts Member.signature seen members := by
  induction members generalizing seen with
  | nil => rfl
  | cons m members ih =>
    rw [Member.fresh, firsts_cons]
    by_cases h : m.signature ∈ seen
    · rw [if_pos (List.contains_iff_mem.mpr h), if_pos h, ih]
    · have hseen : ∀ k, k ∈ seen ++ [m.signature] ↔ k ∈ m.signature :: seen := fun k => by
        rw [List.mem_append, List.mem_singleton, List.mem_cons, or_comm]
      rw [if_neg fun hc => h (List.contains_iff_mem.mp hc), if_neg h, ih, firsts_congr _ hseen]

/-- Nothing is recorded for a symbol without signatures. -/
theorem getD_recordedSignatures (q : QualifiedName) (ls : List Located) :
    (recordedSignatures q ls).getD [] = (signaturesIn q ls).eraseDups := by
  rw [recordedSignatures]
  split
  · rfl
  · next h =>
    rw [signaturesIn_eq_nil (by simpa using h)]
    rfl

/-- The signatures that are recorded after one more declaration. -/
theorem recordedSignatures_append (q : QualifiedName) (ls : List Located) (l : Located) :
    recordedSignatures q (ls ++ [l]) =
      if l.merges q then some ((recordedSignatures q ls).getD [] ++ (l.fresh ls).map Binding.signature)
      else recordedSignatures q ls := by
  rw [getD_recordedSignatures]
  by_cases h : l.merges q = true
  · have hq : l.qualifiedName = q := by
      rw [Located.merges, Bool.and_eq_true, beq_iff_eq] at h
      exact h.2
    subst hq
    rw [if_pos h, recordedSignatures, Located.eraseDups_signaturesIn_append, List.any_append]
    simp [h]
  · have hnil : signaturesIn q [l] = [] := signaturesIn_eq_nil (by simpa using h)
    rw [if_neg h, recordedSignatures, signaturesIn_append, hnil, List.append_nil, List.any_append]
    simp [h, recordedSignatures]

section

variable {table : SymbolTable} {ls : List Located} {l : Located} {known : MemberSignatures}

/-- A declaration is named in its own scope. -/
theorem qualify_scopeOf {name : String} (h : l.declaration.name = name) :
    (OutputRecords.scopeOf table l).qualify name = l.qualifiedName := by
  rw [Located.qualifiedName, h]
  rfl

theorem merges_of_hasSignatures (h : l.declaration.hasSignatures = true) (q : QualifiedName) :
    l.merges q = true ↔ l.qualifiedName = q := by
  rw [Located.merges, h, Bool.true_and, beq_iff_eq]

theorem fresh_eq_freshMembers {c : ClassDeclaration} (hd : l.declaration = .classDecl c)
    (hknown : ∀ q, known.get? q = recordedSignatures q ls) :
    l.fresh ls = (c.freshMembers known l.qualifiedName).map fun m => ⟨l, .member m⟩ := by
  rw [Located.fresh_classDecl ls hd, ClassDeclaration.freshMembers, Member.fresh_eq_firsts, MemberSignatures.of, hknown,
    getD_recordedSignatures, firsts_congr _ fun k => List.mem_eraseDups]

/-- A class adds its piece. -/
theorem emit_classDecl {c : ClassDeclaration} (hd : l.declaration = .classDecl c)
    (hknown : ∀ q, known.get? q = recordedSignatures q ls) (all : List Located) :
    c.emit (OutputRecords.scopeOf table l) known = chunkOf table (l.piece all ls) := by
  have hname : (OutputRecords.scopeOf table l).qualify c.name = l.qualifiedName := qualify_scopeOf (by rw [hd]; rfl)
  have hcontains : known.contains l.qualifiedName = ls.any (Located.merges l.qualifiedName) := by
    rw [Ledger.contains, hknown, recordedSignatures]
    split <;> simp_all
  have htexts : (l.fresh ls).map (Binding.text table) =
      (c.freshMembers known l.qualifiedName).map (OutputRecords.scopeOf table l).member := by
    rw [fresh_eq_freshMembers hd hknown, List.map_map]
    rfl
  have himports : (l.fresh ls).flatMap (Binding.imports table) =
      (c.freshMembers known l.qualifiedName).flatMap fun m => (OutputRecords.scopeOf table l).imports m.types := by
    rw [fresh_eq_freshMembers hd hknown, List.flatMap_map]
    rfl
  simp only [ClassDeclaration.emit, hname, chunkOf, Located.piece, hd, hcontains, ← htexts, ← himports, List.map_append,
    List.flatMap_append, String.join_append, Chunk.mk.injEq]
  constructor
  · congr 1
    · split <;> simp [Block.text]
    · split <;> simp_all [Block.text, extensionBlock]
  · split <;> split <;> simp_all [Block.imports]

/-- A class adds the signatures of its new members. -/
theorem get?_signatures_classDecl {c : ClassDeclaration} (hd : l.declaration = .classDecl c)
    (hknown : ∀ q, known.get? q = recordedSignatures q ls) (q : QualifiedName) :
    (c.signatures (OutputRecords.scopeOf table l) known).get? q = recordedSignatures q (ls ++ [l]) := by
  have hname : (OutputRecords.scopeOf table l).qualify c.name = l.qualifiedName := qualify_scopeOf (by rw [hd]; rfl)
  have hmerges := merges_of_hasSignatures (l := l) (by rw [hd]; rfl) q
  rw [recordedSignatures_append, ClassDeclaration.signatures, hname, Ledger.get?_put]
  by_cases hq : l.qualifiedName = q
  · subst hq
    rw [if_pos rfl, if_pos (hmerges.mpr rfl), MemberSignatures.of, hknown, fresh_eq_freshMembers hd hknown,
      List.map_map]
    rfl
  · rw [if_neg hq, if_neg fun h => hq (hmerges.mp h), hknown]

theorem isKnown_iff {f : FunctionDeclaration} (hd : l.declaration = .function f)
    (hknown : ∀ q, known.get? q = recordedSignatures q ls) :
    f.isKnown (OutputRecords.scopeOf table l) known = true ↔ f.signature ∈ signaturesIn l.qualifiedName ls := by
  have hname : (OutputRecords.scopeOf table l).qualify f.name = l.qualifiedName := qualify_scopeOf (by rw [hd]; rfl)
  rw [FunctionDeclaration.isKnown, hname, MemberSignatures.of, hknown, getD_recordedSignatures, List.contains_iff_mem,
    List.mem_eraseDups]

/-- A function adds its piece. -/
theorem emit_function {f : FunctionDeclaration} (hd : l.declaration = .function f)
    (hknown : ∀ q, known.get? q = recordedSignatures q ls) (all : List Located) :
    f.emit (OutputRecords.scopeOf table l) known = chunkOf table (l.piece all ls) := by
  have hpiece : l.piece all ls = (l.fresh ls).map .function := by rw [Located.piece, hd]
  have htext : Binding.text table ⟨l, .function f⟩ = (OutputRecords.scopeOf table l).function f := rfl
  rw [FunctionDeclaration.emit, hpiece, Located.fresh_function ls hd]
  by_cases h : f.signature ∈ signaturesIn l.qualifiedName ls
  · rw [if_pos ((isKnown_iff hd hknown).mpr h), if_pos h]
    rfl
  · rw [if_neg fun hk => h ((isKnown_iff hd hknown).mp hk), if_neg h]
    simp [chunkOf, Block.text, Block.imports, htext, Scope.function, Binding.imports, Bindable.types]

/-- A function adds its signature if it is new. -/
theorem get?_signatures_function {f : FunctionDeclaration} (hd : l.declaration = .function f)
    (hknown : ∀ q, known.get? q = recordedSignatures q ls) (q : QualifiedName) :
    (f.signatures (OutputRecords.scopeOf table l) known).get? q = recordedSignatures q (ls ++ [l]) := by
  have hname : (OutputRecords.scopeOf table l).qualify f.name = l.qualifiedName := qualify_scopeOf (by rw [hd]; rfl)
  have hmerges := merges_of_hasSignatures (l := l) (by rw [hd]; rfl) q
  rw [recordedSignatures_append, FunctionDeclaration.signatures, hname, Located.fresh_function ls hd]
  by_cases h : f.signature ∈ signaturesIn l.qualifiedName ls
  · rw [if_pos ((isKnown_iff hd hknown).mpr h), if_pos h, hknown]
    split
    · next hq =>
      obtain rfl := hmerges.mp hq
      rw [List.map_nil, List.append_nil, getD_recordedSignatures, recordedSignatures,
        if_pos (any_merges_of_mem_signaturesIn h)]
    · rfl
  · rw [if_neg fun hk => h ((isKnown_iff hd hknown).mp hk), if_neg h, Ledger.get?_put, MemberSignatures.of, hknown,
      hknown]
    by_cases hq : l.qualifiedName = q
    · subst hq
      rw [if_pos rfl, if_pos (hmerges.mpr rfl)]
      rfl
    · rw [if_neg hq, if_neg fun h => hq (hmerges.mp h)]

/-! ## Records -/

/-- What a record holds after some declarations: their layers as its chunks, its type aliases in their places, and the
signatures of every symbol. -/
structure OutputRecord.Represents (table : SymbolTable) (ls : List Located) (r : OutputRecord) : Prop where
  chunks : r.chunks = (layersOf ls).map (chunkOf table)
  slots : ∀ q, r.slots.get? q = (layersOf ls).findIdx? fun piece => piece.any (Block.isAliasOf q)
  signatures : ∀ q, r.signatures.get? q = recordedSignatures q ls

namespace OutputRecord

theorem Represents.empty : Represents table [] {} := ⟨rfl, fun _ => rfl, fun _ => rfl⟩

theorem isEmpty_code_chunkOf {piece : List Block} (hp : ∀ b ∈ piece, b.text table ≠ "") :
    (chunkOf table piece).code.isEmpty = piece.isEmpty := by
  cases piece with
  | nil => simp [chunkOf]
  | cons b bs => simp [chunkOf, String.append_eq_empty_iff, hp b List.mem_cons_self]

theorem chunks_push (r : OutputRecord) {piece : List Block} (hp : ∀ b ∈ piece, b.text table ≠ "") :
    (r.push (chunkOf table piece)).chunks = r.chunks ++ if piece = [] then [] else [chunkOf table piece] := by
  rw [push, isEmpty_code_chunkOf hp]
  cases piece with
  | nil => exact (List.append_nil _).symm
  | cons b bs => rfl

@[simp] theorem slots_push (r : OutputRecord) (c : Chunk) : (r.push c).slots = r.slots := by
  rw [push]
  split <;> rfl

namespace Represents

variable {r : OutputRecord}

/-- A declaration that is not a type alias adds its piece. -/
theorem push (h : r.Represents table ls) (hl : ∀ q, l.aliases q = false) {known : MemberSignatures}
    (hs : ∀ q, known.get? q = recordedSignatures q (ls ++ [l])) :
    { r.push (chunkOf table (l.piece ls ls)) with signatures := known }.Represents table (ls ++ [l]) := by
  have hlayers := layersOf_append_of_not_aliases hl ls
  have hpiece : ∀ q, (l.piece ls ls).any (Block.isAliasOf q) = false := by
    intro q
    rw [← Located.piece_append_of_not_aliases hl, Located.any_isAliasOf_piece q ls (by simp), hl, Bool.false_and]
  constructor
  · show (r.push _).chunks = _
    rw [chunks_push r fun b hb => Located.text_ne_empty_of_mem_piece table hb, hlayers, h.chunks, List.map_append]
    split <;> rfl
  · intro q
    show (r.push _).slots.get? q = _
    rw [slots_push, hlayers, h.slots, List.findIdx?_append]
    split <;> simp [hpiece q]
  · exact hs

theorem isSome_slots (h : r.Represents table ls) (q : QualifiedName) :
    (r.slots.get? q).isSome = ls.any (Located.aliases q) := by
  rw [h.slots, List.findIdx?_isSome, any_layersOf]

theorem signatures_append_of_not_merges (h : r.Represents table ls) (hl : l.declaration.hasSignatures = false)
    (q : QualifiedName) : r.signatures.get? q = recordedSignatures q (ls ++ [l]) := by
  have hm : l.merges q = false := by rw [Located.merges, hl, Bool.false_and]
  rw [recordedSignatures_append, if_neg (by simp [hm]), h.signatures]

/-- A type alias that is declared first takes a place at the end. -/
theorem setAlias_new (h : r.Represents table ls) {a : AliasDeclaration} (hd : l.declaration = .alias a)
    (hnew : r.slots.get? l.qualifiedName = none) :
    (r.setAlias l.qualifiedName (chunkOf table [.alias l a])).Represents table (ls ++ [l]) := by
  have hnone := List.findIdx?_eq_none_iff.mp ((h.slots l.qualifiedName).symm.trans hnew)
  have hany : ls.any (Located.aliases l.qualifiedName) = false := by
    rw [← h.isSome_slots, hnew]
    rfl
  have hsame : (layersOf ls).map (l.replaceIn a) = layersOf ls := by
    have hid : ∀ piece ∈ layersOf ls, l.replaceIn a piece = id piece := by
      intro piece hp
      exact if_neg (by simp [hnone piece hp])
    rw [List.map_congr_left hid, List.map_id]
  have hlayers : layersOf (ls ++ [l]) = layersOf ls ++ [[.alias l a]] := by
    rw [layersOf_append_alias hd, hsame, hany, if_neg Bool.false_ne_true]
  simp only [OutputRecord.setAlias, hnew]
  refine ⟨?_, ?_, h.signatures_append_of_not_merges (by rw [hd]; rfl)⟩
  · rw [hlayers, h.chunks, List.map_append]
    rfl
  · intro q
    show (r.slots.put l.qualifiedName r.chunks.length).get? q = _
    rw [Ledger.get?_put, hlayers, List.findIdx?_append, ← h.slots, h.chunks, List.length_map]
    by_cases hq : l.qualifiedName = q
    · subst hq
      simp [hnew, Block.isAliasOf]
    · have hne : (l.qualifiedName == q) = false := beq_eq_false_iff_ne.mpr hq
      simp [hq, Block.isAliasOf, hne]

/-- A type alias that is declared again keeps its place and gets a new text. -/
theorem setAlias_again (h : r.Represents table ls) {a : AliasDeclaration} (hd : l.declaration = .alias a) {slot : Nat}
    (hold : r.slots.get? l.qualifiedName = some slot) :
    (r.setAlias l.qualifiedName (chunkOf table [.alias l a])).Represents table (ls ++ [l]) := by
  have hany : ls.any (Located.aliases l.qualifiedName) = true := by
    rw [← h.isSome_slots, hold]
    rfl
  have hlayers : layersOf (ls ++ [l]) = (layersOf ls).map (l.replaceIn a) := by
    rw [layersOf_append_alias hd, hany, if_pos rfl, List.append_nil]
  have hset : (layersOf ls).set slot [.alias l a] = (layersOf ls).map (l.replaceIn a) :=
    set_findIdx?_eq_map _ (pairwise_layersOf l.qualifiedName ls) ((h.slots l.qualifiedName).symm.trans hold)
  simp only [OutputRecord.setAlias, hold]
  refine ⟨?_, ?_, h.signatures_append_of_not_merges (by rw [hd]; rfl)⟩
  · rw [hlayers, ← hset, h.chunks, List.map_set]
  · intro q
    show r.slots.get? q = _
    rw [hlayers, h.slots, List.findIdx?_map]
    exact findIdx?_congr fun piece hpiece => (any_isAliasOf_replaceIn hpiece hd q).symm

/-- **A step**: one more declaration keeps what a record represents. -/
theorem add (h : r.Represents table ls) (l : Located) :
    (r.add (OutputRecords.scopeOf table l) l.declaration).Represents table (ls ++ [l]) := by
  cases hd : l.declaration with
  | classDecl c =>
    have hl : ∀ q, l.aliases q = false := Located.aliases_of_ne (by simp [hd])
    have hs : ∀ q, (c.signatures (OutputRecords.scopeOf table l) r.signatures).get? q =
        recordedSignatures q (ls ++ [l]) :=
      get?_signatures_classDecl hd h.signatures
    have hpush := h.push hl hs
    rwa [← emit_classDecl hd h.signatures] at hpush
  | interface name =>
    have hl : ∀ q, l.aliases q = false := Located.aliases_of_ne (by simp [hd])
    have hpush := h.push hl (h.signatures_append_of_not_merges (by rw [hd]; rfl))
    have hpiece : l.piece ls ls = [] := by rw [Located.piece, hd]
    rwa [hpiece] at hpush
  | function f =>
    have hl : ∀ q, l.aliases q = false := Located.aliases_of_ne (by simp [hd])
    have hs : ∀ q, (f.signatures (OutputRecords.scopeOf table l) r.signatures).get? q =
        recordedSignatures q (ls ++ [l]) :=
      get?_signatures_function hd h.signatures
    have hpush := h.push hl hs
    rwa [← emit_function hd h.signatures] at hpush
  | «alias» a =>
    have hname : (OutputRecords.scopeOf table l).qualify a.name = l.qualifiedName := qualify_scopeOf (by rw [hd]; rfl)
    have hchunk : a.emit (OutputRecords.scopeOf table l) = chunkOf table [.alias l a] := by
      simp [chunkOf, Block.text, Block.imports]
    show (r.setAlias _ _).Represents table _
    rw [hname, hchunk]
    cases hslot : r.slots.get? l.qualifiedName with
    | none => exact h.setAlias_new hd hslot
    | some slot => exact h.setAlias_again hd hslot

/-- **A run**: further declarations, one after the other, keep what a record represents. -/
theorem addAll (h : r.Represents table ls) (xs : List Located) : (r.addAll table xs).Represents table (ls ++ xs) := by
  induction xs generalizing ls r with
  | nil => rwa [List.append_nil]
  | cons x xs ih =>
    have hstep := ih (h.add x)
    rwa [List.append_assoc] at hstep

end Represents

/-- A record represents the declarations that it has taken in. -/
theorem represents_addAll (table : SymbolTable) (ls : List Located) : (addAll table {} ls).Represents table ls :=
  Represents.empty.addAll ls

end OutputRecord

/-- **A record of a run** represents the declarations that are sent to its path. -/
theorem OutputRecords.represents_of_get?_route {files : List DeclarationFile} {layout : OutputLayout} {path : String}
    {r : OutputRecord} (h : (route files table layout).get? path = some r) :
    r.Represents table (sentTo table layout files path) := by
  rw [eq_addAll_of_get?_route table layout h]
  exact OutputRecord.represents_addAll table _

end

end InteropBindings
