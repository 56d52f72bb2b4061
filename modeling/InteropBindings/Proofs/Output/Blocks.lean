import InteropBindings.Output.Routing
import InteropBindings.Proofs.FirstOccurrences

/-!
# Blocks of a binding file

The text of a binding file is made of blocks: the stub of a class, an extension with members, a function, a type alias.
Which blocks a declaration is good for follows from the declarations before it, and for a type alias also from those
after it:

- what is bound under a signature comes from the first declaration that has it (`Located.fresh`);
- a type alias stands where it is declared first and says what it is declared to be last (`lastAlias`).

`piecesAlong` lists these blocks, one piece for each declaration. That a record holds exactly them is shown in
`InteropBindings.Proofs.Output.Contents`.
-/

namespace InteropBindings

/-! ## What is bound under a signature -/

/-- A member of a class, or a function. -/
inductive Bindable
  | member (m : Member)
  | function (f : FunctionDeclaration)
deriving DecidableEq, Repr

/-- The signature of a member or a function. -/
def Bindable.signature : Bindable → String
  | .member m => m.signature
  | .function f => f.signature

/-- The types in a member or a function. -/
def Bindable.types : Bindable → List (Option TypeNode)
  | .member m => m.types
  | .function f => f.types

/-- The text that binds a function. -/
def Scope.function (s : Scope) (f : FunctionDeclaration) : String :=
  boundTo (s.qualify f.name) ++ "external " ++ s.typeName? f.returns ++ " " ++ f.name ++ "("
    ++ s.params f.params ++ ");\n\n"

/-- A member or a function with the declaration that it comes from. -/
structure Binding where
  origin : Located
  bindable : Bindable
deriving DecidableEq, Repr

namespace Binding

/-- The symbol that something is bound for. -/
def name (b : Binding) : QualifiedName := b.origin.qualifiedName

/-- The signature that something is bound under. -/
def signature (b : Binding) : String := b.bindable.signature

/-- What tells bindings apart: the symbol and the signature. -/
def key (b : Binding) : QualifiedName × String := (b.name, b.signature)

/-- The text of a binding, made from the declaration that it comes from. -/
def text (table : SymbolTable) (b : Binding) : String :=
  match b.bindable with
  | .member m => (OutputRecords.scopeOf table b.origin).member m
  | .function f => (OutputRecords.scopeOf table b.origin).function f

/-- The imports that the text of a binding needs. -/
def imports (table : SymbolTable) (b : Binding) : List String :=
  (OutputRecords.scopeOf table b.origin).imports b.bindable.types

end Binding

/-- Whether declarations of a symbol are merged by signatures. -/
def Declaration.hasSignatures : Declaration → Bool
  | .classDecl _ | .function _ => true
  | .interface _ | .alias _ => false

namespace Located

/-- Whether a declaration is one of a symbol that is merged by signatures. -/
def merges (q : QualifiedName) (l : Located) : Bool := l.declaration.hasSignatures && l.qualifiedName == q

/-- What a declaration binds under signatures. -/
def bindings (l : Located) : List Binding :=
  match l.declaration with
  | .classDecl c => c.members.map fun m => ⟨l, .member m⟩
  | .function f => [⟨l, .function f⟩]
  | .interface _ | .alias _ => []

/-- What a declaration binds that the declarations before it do not bind, once for each signature. -/
def fresh (before : List Located) (l : Located) : List Binding :=
  firsts Binding.key ((before.flatMap bindings).map Binding.key) l.bindings

end Located

/-- The signatures of a symbol in some declarations, in order and with repetitions. -/
def signaturesIn (q : QualifiedName) (ls : List Located) : List String :=
  ((ls.flatMap Located.bindings).filter fun b => b.name = q).map Binding.signature

/-- What a declaration binds is bound for its own symbol. -/
theorem Located.origin_of_mem_bindings {l : Located} {b : Binding} (h : b ∈ l.bindings) : b.origin = l := by
  cases hd : l.declaration with
  | classDecl c =>
    simp only [bindings, hd, List.mem_map] at h
    obtain ⟨m, _, rfl⟩ := h
    rfl
  | interface name => simp [bindings, hd] at h
  | function f =>
    simp only [bindings, hd, List.mem_singleton] at h
    rw [h]
  | «alias» a => simp [bindings, hd] at h

theorem mem_signaturesIn {q : QualifiedName} {ls : List Located} {s : String} :
    s ∈ signaturesIn q ls ↔ (q, s) ∈ (ls.flatMap Located.bindings).map Binding.key := by
  simp only [signaturesIn, List.mem_map, List.mem_filter, decide_eq_true_eq, Binding.key, Prod.mk.injEq]
  exact exists_congr fun b => by rw [and_assoc]

theorem signaturesIn_append (q : QualifiedName) (xs ys : List Located) :
    signaturesIn q (xs ++ ys) = signaturesIn q xs ++ signaturesIn q ys := by
  simp [signaturesIn]

theorem signaturesIn_self (l : Located) : signaturesIn l.qualifiedName [l] = l.bindings.map Binding.signature := by
  have h : ∀ b ∈ l.bindings, b.name = l.qualifiedName := fun b hb => by
    rw [Binding.name, Located.origin_of_mem_bindings hb]
  simp [signaturesIn, List.filter_eq_self.mpr fun b hb => decide_eq_true (h b hb)]

/-- Only declarations that are merged by signatures have any. -/
theorem signaturesIn_eq_nil {q : QualifiedName} {ls : List Located} (h : ls.any (Located.merges q) = false) :
    signaturesIn q ls = [] := by
  rw [List.any_eq_false] at h
  rw [signaturesIn, List.map_eq_nil_iff, List.filter_eq_nil_iff]
  intro b hb hq
  obtain ⟨l, hl, hb⟩ := List.mem_flatMap.mp hb
  have hname : l.qualifiedName = q := by
    rw [← Located.origin_of_mem_bindings hb]
    exact of_decide_eq_true hq
  refine h l hl ?_
  cases hd : l.declaration <;>
    simp_all [Located.merges, Declaration.hasSignatures, Located.bindings]

theorem any_merges_of_mem_signaturesIn {q : QualifiedName} {ls : List Located} {s : String}
    (h : s ∈ signaturesIn q ls) : ls.any (Located.merges q) = true := by
  cases hany : ls.any (Located.merges q) with
  | true => rfl
  | false =>
    rw [signaturesIn_eq_nil hany] at h
    cases h

namespace Located

/-- Freshness is a matter of the signatures of one symbol. -/
theorem fresh_eq_firsts (before : List Located) (l : Located) :
    l.fresh before = firsts Binding.signature (signaturesIn l.qualifiedName before) l.bindings := by
  have hkey : ∀ b ∈ l.bindings, (id b).key = (l.qualifiedName, b.signature) := fun b hb => by
    rw [id, Binding.key, Binding.name, origin_of_mem_bindings hb]
  have h : firsts Binding.key ((before.flatMap bindings).map Binding.key) (l.bindings.map id) =
      (firsts Binding.signature (signaturesIn l.qualifiedName before) l.bindings).map id :=
    firsts_map_of_injective (g := fun s => (l.qualifiedName, s)) (fun _ _ h => (Prod.mk.inj h).2) hkey
      fun _ => mem_signaturesIn.symm
  rwa [List.map_id, List.map_id] at h

/-- What is fresh in a class are its members with new signatures. -/
theorem fresh_classDecl (before : List Located) {l : Located} {c : ClassDeclaration}
    (hd : l.declaration = .classDecl c) :
    l.fresh before =
      (firsts Member.signature (signaturesIn l.qualifiedName before) c.members).map fun m => ⟨l, .member m⟩ := by
  have hb : l.bindings = c.members.map fun m => ⟨l, .member m⟩ := by rw [bindings, hd]
  have h : firsts Binding.signature (signaturesIn l.qualifiedName before) (c.members.map fun m => ⟨l, .member m⟩) =
      (firsts Member.signature (signaturesIn l.qualifiedName before) c.members).map fun m => ⟨l, .member m⟩ :=
    firsts_map_of_injective (g := fun s => s) (fun _ _ h => h) (fun _ _ => rfl) fun _ => Iff.rfl
  rw [fresh_eq_firsts, hb, h]

theorem fresh_function (before : List Located) {l : Located} {f : FunctionDeclaration}
    (hd : l.declaration = .function f) :
    l.fresh before =
      if f.signature ∈ signaturesIn l.qualifiedName before then [] else [⟨l, .function f⟩] := by
  have hb : l.bindings = [⟨l, .function f⟩] := by rw [bindings, hd]
  rw [fresh_eq_firsts, hb, firsts_cons, firsts_nil, firsts_nil]
  rfl

theorem eraseDups_signaturesIn_append (before : List Located) (l : Located) :
    (signaturesIn l.qualifiedName (before ++ [l])).eraseDups =
      (signaturesIn l.qualifiedName before).eraseDups ++ (l.fresh before).map Binding.signature := by
  rw [signaturesIn_append, signaturesIn_self, List.eraseDups_append, fresh_eq_firsts, map_firsts]

end Located

/-! ## Blocks -/

/-- A block of a binding file. -/
inductive Block
  | stub (name : QualifiedName) (className : String)
  | extension (name : QualifiedName) (className : String) (members : List Binding)
  | function (b : Binding)
  | alias (origin : Located) (decl : AliasDeclaration)
deriving DecidableEq, Repr

namespace Block

/-- The text of a block. -/
def text (table : SymbolTable) : Block → String
  | .stub name className => classStub name className
  | .extension _ className members => extensionBlock className (members.map (Binding.text table))
  | .function b => b.text table
  | .alias origin decl => (decl.emit (OutputRecords.scopeOf table origin)).code

/-- The imports that the text of a block needs. -/
def imports (table : SymbolTable) : Block → List String
  | .stub _ _ => []
  | .extension _ _ members => members.flatMap (Binding.imports table)
  | .function b => b.imports table
  | .alias origin decl => (decl.emit (OutputRecords.scopeOf table origin)).imports

/-- What a block binds under signatures. -/
def bindings : Block → List Binding
  | .extension _ _ members => members
  | .function b => [b]
  | .stub _ _ | .alias _ _ => []

/-- Whether a block is the stub of a symbol. -/
def isStubOf (q : QualifiedName) : Block → Bool
  | .stub name _ => name == q
  | _ => false

/-- Whether a block is an extension. -/
def isExtension : Block → Bool
  | .extension _ _ _ => true
  | _ => false

/-- Whether a block is an extension of a symbol. -/
def isExtensionOf (q : QualifiedName) : Block → Bool
  | .extension name _ _ => name == q
  | _ => false

/-- Whether a block is the type alias of a symbol. -/
def isAliasOf (q : QualifiedName) : Block → Bool
  | .alias origin _ => origin.qualifiedName == q
  | _ => false

end Block

/-- The chunk that some blocks make up. -/
def chunkOf (table : SymbolTable) (piece : List Block) : Chunk :=
  ⟨String.join (piece.map (Block.text table)), piece.flatMap (Block.imports table)⟩

/-! ## Pieces -/

/-- The block of a declaration as the type alias of a symbol. -/
def Located.aliasBlock? (q : QualifiedName) (l : Located) : Option Block :=
  match l.declaration with
  | .alias a => if l.qualifiedName = q then some (.alias l a) else none
  | _ => none

/-- Whether a declaration is one of a type alias. -/
def Located.aliases (q : QualifiedName) (l : Located) : Bool := (l.aliasBlock? q).isSome

/-- The last declaration of a type alias, if there is one. -/
def lastAlias (q : QualifiedName) (ls : List Located) : List Block :=
  (ls.filterMap (Located.aliasBlock? q)).getLast?.toList

/-- The blocks that a declaration is good for, after some declarations and among all of them. -/
def Located.piece (all before : List Located) (l : Located) : List Block :=
  match l.declaration with
  | .classDecl c =>
    (if before.any (merges l.qualifiedName) then [] else [.stub l.qualifiedName c.name]) ++
      if l.fresh before = [] then [] else [.extension l.qualifiedName c.name (l.fresh before)]
  | .function _ => (l.fresh before).map .function
  | .alias _ => if before.any (aliases l.qualifiedName) then [] else lastAlias l.qualifiedName all
  | .interface _ => []

/-- The pieces of declarations one after the other, the first of them after some others. -/
def piecesAlong (all : List Located) : (before : List Located) → List Located → List (List Block)
  | _, [] => []
  | before, l :: rest => l.piece all before :: piecesAlong all (before ++ [l]) rest

/-- The pieces of some declarations, one for each. -/
def piecesOf (ls : List Located) : List (List Block) := piecesAlong ls [] ls

/-- The blocks of some declarations. -/
def blocksOf (ls : List Located) : List Block := (piecesOf ls).flatten

/-- The pieces of declarations in two parts. -/
theorem piecesAlong_append (all before xs ys : List Located) :
    piecesAlong all before (xs ++ ys) = piecesAlong all before xs ++ piecesAlong all (before ++ xs) ys := by
  induction xs generalizing before with
  | nil => simp [piecesAlong]
  | cons x xs ih => simp [piecesAlong, ih, List.append_assoc]

theorem length_piecesAlong (all before ls : List Located) : (piecesAlong all before ls).length = ls.length := by
  induction ls generalizing before with
  | nil => rfl
  | cons l ls ih => simp [piecesAlong, ih]

theorem piecesAlong_split (all before after : List Located) (l : Located) :
    piecesAlong all [] (before ++ l :: after) =
      piecesAlong all [] before ++ l.piece all before :: piecesAlong all (before ++ [l]) after := by
  rw [piecesAlong_append, List.nil_append, piecesAlong]

theorem getElem?_piecesOf (before after : List Located) (l : Located) :
    (piecesOf (before ++ l :: after))[before.length]? = some (l.piece (before ++ l :: after) before) := by
  have hlength := length_piecesAlong (before ++ l :: after) [] before
  rw [piecesOf, piecesAlong_split, List.getElem?_append_right (Nat.le_of_eq hlength), hlength, Nat.sub_self,
    List.getElem?_cons_zero]

theorem mem_piecesAlong {all before ls : List Located} {piece : List Block} (h : piece ∈ piecesAlong all before ls) :
    ∃ xs l ys, ls = xs ++ l :: ys ∧ piece = l.piece all (before ++ xs) := by
  induction ls generalizing before with
  | nil => cases h
  | cons l ls ih =>
    rcases List.mem_cons.mp h with rfl | h
    · exact ⟨[], l, ls, rfl, by rw [List.append_nil]⟩
    · obtain ⟨xs, l', ys, rfl, rfl⟩ := ih h
      exact ⟨l :: xs, l', ys, rfl, by rw [List.append_assoc]; rfl⟩

/-! ## The place and the text of a type alias -/

/-- The block of a declaration as a type alias names that declaration. -/
theorem Located.aliasBlock?_eq_some_iff {q : QualifiedName} {l : Located} {b : Block} :
    l.aliasBlock? q = some b ↔ ∃ a, l.declaration = .alias a ∧ l.qualifiedName = q ∧ b = .alias l a := by
  cases hd : l.declaration with
  | classDecl c => simp [aliasBlock?, hd]
  | interface name => simp [aliasBlock?, hd]
  | function f => simp [aliasBlock?, hd]
  | «alias» a => simp [aliasBlock?, hd, eq_comm]

theorem Located.aliases_alias {l : Located} {a : AliasDeclaration} (hd : l.declaration = .alias a) (q : QualifiedName) :
    l.aliases q = (l.qualifiedName == q) := by
  by_cases hq : l.qualifiedName = q
  · simp [aliases, aliasBlock?, hd, hq]
  · simp [aliases, aliasBlock?, hd, hq]

/-- A declaration of another kind is none of a type alias. -/
theorem Located.aliases_of_ne {l : Located} (h : ∀ a, l.declaration ≠ .alias a) (q : QualifiedName) :
    l.aliases q = false := by
  rw [aliases, Option.isSome_eq_false_iff, Option.isNone_iff_eq_none, Option.eq_none_iff_forall_ne_some]
  intro b hb
  obtain ⟨a, hd, _⟩ := aliasBlock?_eq_some_iff.mp hb
  exact h a hd

/-- The last declaration of a type alias is one of its declarations. -/
theorem mem_lastAlias {q : QualifiedName} {ls : List Located} {b : Block} (h : b ∈ lastAlias q ls) :
    ∃ l ∈ ls, ∃ a, l.declaration = .alias a ∧ l.qualifiedName = q ∧ b = .alias l a := by
  rw [lastAlias, Option.mem_toList] at h
  obtain ⟨l, hl, hb⟩ := List.mem_filterMap.mp (List.mem_of_getLast? h)
  exact ⟨l, hl, Located.aliasBlock?_eq_some_iff.mp hb⟩

theorem lastAlias_append (q : QualifiedName) (ls : List Located) (l : Located) :
    lastAlias q (ls ++ [l]) = match l.aliasBlock? q with
      | some b => [b]
      | none => lastAlias q ls := by
  rw [lastAlias, List.filterMap_append]
  cases h : l.aliasBlock? q with
  | none => simp [h, lastAlias]
  | some b => simp [h]

/-- A type alias has a last declaration exactly when it has one. -/
theorem any_isAliasOf_lastAlias (q q' : QualifiedName) (ls : List Located) :
    (lastAlias q ls).any (Block.isAliasOf q') = (q == q' && ls.any (Located.aliases q)) := by
  have hnil : lastAlias q ls = [] ↔ ls.any (Located.aliases q) = false := by
    rw [lastAlias, Option.toList_eq_nil_iff, List.getLast?_eq_none_iff, List.filterMap_eq_nil_iff, List.any_eq_false]
    simp [Located.aliases]
  cases h : lastAlias q ls with
  | nil => simp [hnil.mp h]
  | cons b bs =>
    have hany : ls.any (Located.aliases q) = true := by
      rw [← Bool.not_eq_false, ← hnil, h]
      exact List.cons_ne_nil b bs
    have hall : ∀ b' ∈ b :: bs, b'.isAliasOf q' = (q == q') := fun b' hb' => by
      obtain ⟨l, _, a, _, rfl, rfl⟩ := mem_lastAlias (h ▸ hb')
      rfl
    rw [hany, Bool.and_true, List.any_cons, hall b List.mem_cons_self, Bool.or_eq_left_iff_imp, List.any_eq_true]
    rintro ⟨b', hb', hq⟩
    rwa [hall b' (List.mem_cons_of_mem _ hb')] at hq

namespace Located

/-- A piece holds a type alias where it is declared first. -/
theorem any_isAliasOf_piece (q : QualifiedName) {all : List Located} (before : List Located) {l : Located}
    (hl : l ∈ all) :
    (l.piece all before).any (Block.isAliasOf q) = (l.aliases q && !before.any (aliases q)) := by
  cases hd : l.declaration with
  | classDecl c =>
    rw [aliases_of_ne (by simp [hd])]
    simp only [piece, hd]
    split <;> split <;> simp [Block.isAliasOf]
  | interface name =>
    rw [aliases_of_ne (by simp [hd])]
    simp [piece, hd]
  | function f =>
    rw [aliases_of_ne (by simp [hd])]
    simp [piece, hd, List.any_map, Block.isAliasOf]
  | «alias» a =>
    simp only [piece, hd]
    rw [aliases_alias hd]
    by_cases hq : l.qualifiedName = q
    · subst hq
      have hany : all.any (aliases l.qualifiedName) = true :=
        List.any_eq_true.mpr ⟨l, hl, by simp [aliases_alias hd]⟩
      split
      · next hb => simp [hb]
      · next hb => rw [any_isAliasOf_lastAlias, hany]; simp [hb]
    · have hne : (l.qualifiedName == q) = false := beq_eq_false_iff_ne.mpr hq
      split
      · simp [hne]
      · rw [any_isAliasOf_lastAlias, hne, Bool.false_and, Bool.false_and]

/-- A declaration of another kind does not change the pieces before it. -/
theorem piece_append_of_not_aliases {l' : Located} (h : ∀ q, l'.aliases q = false) (all before : List Located)
    (l : Located) :
    l.piece (all ++ [l']) before = l.piece all before := by
  have hlast : ∀ q, lastAlias q (all ++ [l']) = lastAlias q all := fun q => by
    have hnone : l'.aliasBlock? q = none := by simpa [aliases] using h q
    rw [lastAlias_append, hnone]
  cases hd : l.declaration <;> simp [piece, hd, hlast]

/-- A piece with a declaration in place of the type alias that it declares, if the piece holds that one. -/
def replaceIn (l : Located) (a : AliasDeclaration) (piece : List Block) : List Block :=
  if piece.any (Block.isAliasOf l.qualifiedName) then [.alias l a] else piece

/-- A further declaration of a type alias replaces its block where it is. -/
theorem piece_append_alias {l' : Located} {a : AliasDeclaration} (hd' : l'.declaration = .alias a) {all : List Located}
    (before : List Located) {l : Located} (hl : l ∈ all) :
    l.piece (all ++ [l']) before = l'.replaceIn a (l.piece all before) := by
  rw [replaceIn, any_isAliasOf_piece _ _ hl]
  cases hd : l.declaration with
  | classDecl c => simp [piece, hd, aliases, aliasBlock?]
  | interface name => simp [piece, hd, aliases, aliasBlock?]
  | function f => simp [piece, hd, aliases, aliasBlock?]
  | «alias» a' =>
    simp only [piece, hd, aliases_alias hd]
    by_cases hq : l'.qualifiedName = l.qualifiedName
    · rw [lastAlias_append, aliasBlock?_eq_some_iff.mpr ⟨a, hd', hq, rfl⟩, hq]
      split <;> simp_all
    · have hnone : l'.aliasBlock? l.qualifiedName = none := by simp [aliasBlock?, hd', hq]
      rw [lastAlias_append, hnone]
      simp [Ne.symm hq]

end Located

/-- The pieces hold a type alias where one of the declarations is the first of it. -/
theorem any_isAliasOf_piecesAlong (q : QualifiedName) {all : List Located} (before : List Located) {ls : List Located}
    (hls : ∀ l ∈ ls, l ∈ all) :
    (piecesAlong all before ls).any (fun piece => piece.any (Block.isAliasOf q)) =
      (ls.any (Located.aliases q) && !before.any (Located.aliases q)) := by
  induction ls generalizing before with
  | nil => simp [piecesAlong]
  | cons l ls ih =>
    rw [piecesAlong, List.any_cons, Located.any_isAliasOf_piece q before (hls l List.mem_cons_self),
      ih _ fun l' hl' => hls l' (List.mem_cons_of_mem _ hl'), List.any_cons, List.any_append]
    cases hl : l.aliases q <;> simp [hl, Bool.and_comm]

/-- No two pieces hold one type alias. -/
theorem pairwise_piecesAlong (q : QualifiedName) {all : List Located} (before : List Located) {ls : List Located}
    (hls : ∀ l ∈ ls, l ∈ all) :
    (piecesAlong all before ls).Pairwise fun piece piece' =>
      piece.any (Block.isAliasOf q) → ¬ piece'.any (Block.isAliasOf q) := by
  induction ls generalizing before with
  | nil => exact .nil
  | cons l ls ih =>
    have hls' : ∀ l' ∈ ls, l' ∈ all := fun l' hl' => hls l' (List.mem_cons_of_mem _ hl')
    refine .cons (fun piece' hpiece' h h' => ?_) (ih _ hls')
    rw [Located.any_isAliasOf_piece q before (hls l List.mem_cons_self), Bool.and_eq_true] at h
    have hany : (piecesAlong all (before ++ [l]) ls).any (fun piece => piece.any (Block.isAliasOf q)) = true :=
      List.any_eq_true.mpr ⟨piece', hpiece', h'⟩
    rw [any_isAliasOf_piecesAlong q _ hls'] at hany
    simp [h.1] at hany

/-! ## What a piece holds -/

/-- **The blocks of a piece**: a class has a stub if it comes first, and an extension if something is fresh; a function
is fresh itself; a type alias says what some declaration of it says. -/
theorem Located.mem_piece {all before : List Located} {l : Located} {b : Block} (h : b ∈ l.piece all before) :
    (∃ c, l.declaration = .classDecl c ∧ before.any (merges l.qualifiedName) = false ∧
      b = .stub l.qualifiedName c.name) ∨
    (∃ c, l.declaration = .classDecl c ∧ l.fresh before ≠ [] ∧
      b = .extension l.qualifiedName c.name (l.fresh before)) ∨
    (∃ f, l.declaration = .function f ∧ b = .function ⟨l, .function f⟩) ∨
    (∃ l' a, l' ∈ all ∧ l'.declaration = .alias a ∧ l'.qualifiedName = l.qualifiedName ∧ b = .alias l' a) := by
  cases hd : l.declaration with
  | classDecl c =>
    simp only [piece, hd, List.mem_append] at h
    rcases h with h | h
    · split at h
      · cases h
      · next hm => exact .inl ⟨c, rfl, by simpa using hm, List.mem_singleton.mp h⟩
    · split at h
      · cases h
      · next hf => exact .inr (.inl ⟨c, rfl, hf, List.mem_singleton.mp h⟩)
  | interface name => simp [piece, hd] at h
  | function f =>
    simp only [piece, hd, List.mem_map] at h
    obtain ⟨x, hx, rfl⟩ := h
    have hmem := (mem_of_mem_firsts _ hx).1
    simp only [bindings, hd, List.mem_singleton] at hmem
    exact .inr (.inr (.inl ⟨f, rfl, by rw [hmem]⟩))
  | «alias» a =>
    simp only [piece, hd] at h
    split at h
    · cases h
    · obtain ⟨l', hl', a', hd', hq, rfl⟩ := mem_lastAlias h
      exact .inr (.inr (.inr ⟨l', a', hl', hd', hq, rfl⟩))

/-- The piece of a type alias holds nothing but type aliases. -/
theorem Located.mem_piece_alias {all before : List Located} {l : Located} {a : AliasDeclaration}
    (hd : l.declaration = .alias a) {b : Block} (h : b ∈ l.piece all before) : ∃ l' a', b = .alias l' a' := by
  rcases mem_piece h with ⟨c, hc, _⟩ | ⟨c, hc, _⟩ | ⟨f, hf, _⟩ | ⟨l', a', _, _, _, hb⟩
  · rw [hd] at hc
    cases hc
  · rw [hd] at hc
    cases hc
  · rw [hd] at hf
    cases hf
  · exact ⟨l', a', hb⟩

/-- No block of a piece is without text. -/
theorem Located.text_ne_empty_of_mem_piece (table : SymbolTable) {all before : List Located} {l : Located} {b : Block}
    (h : b ∈ l.piece all before) : b.text table ≠ "" := by
  rcases mem_piece h with ⟨c, _, _, rfl⟩ | ⟨c, _, hf, rfl⟩ | ⟨f, _, rfl⟩ | ⟨l', a, _, _, _, rfl⟩
  · simp [Block.text, classStub, boundTo, String.append_eq_empty_iff]
  · simp [Block.text, extensionBlock, hf, String.append_eq_empty_iff]
  · simp [Block.text, Binding.text, Scope.function, boundTo, String.append_eq_empty_iff]
  · simp [Block.text, AliasDeclaration.emit, boundTo, String.append_eq_empty_iff]

/-- Only classes have extensions, at most one each, with everything that is fresh. -/
theorem Located.filter_isExtension_piece (all before : List Located) (l : Located) :
    (l.piece all before).filter Block.isExtension = match l.declaration with
      | .classDecl c => if l.fresh before = [] then [] else [.extension l.qualifiedName c.name (l.fresh before)]
      | _ => [] := by
  cases hd : l.declaration with
  | classDecl c =>
    simp only [piece, hd]
    split <;> split <;> rfl
  | interface name => simp [piece, hd]
  | function f => simp [piece, hd, List.filter_map, Block.isExtension, Function.comp_def]
  | «alias» a =>
    rw [List.filter_eq_nil_iff]
    intro b hb
    obtain ⟨l', a', rfl⟩ := mem_piece_alias hd hb
    exact Bool.false_ne_true

/-! ## What the pieces bind -/

/-- A piece binds what is fresh in its declaration. -/
theorem Located.bindings_piece (all before : List Located) (l : Located) :
    (l.piece all before).flatMap Block.bindings = l.fresh before := by
  cases hd : l.declaration with
  | classDecl c =>
    simp only [piece, hd, List.flatMap_append]
    split <;> split <;> simp_all [Block.bindings]
  | interface name => simp [piece, hd, fresh, bindings]
  | function f => simp [piece, hd, List.flatMap_map, Block.bindings]
  | «alias» a =>
    have hfresh : l.fresh before = [] := by simp [fresh, bindings, hd]
    rw [hfresh, List.flatMap_eq_nil_iff]
    intro b hb
    obtain ⟨l', a', rfl⟩ := mem_piece_alias hd hb
    rfl

/-- **The pieces bind the first of everything that is declared under one signature.** -/
theorem bindings_piecesAlong (all before ls : List Located) :
    (piecesAlong all before ls).flatten.flatMap Block.bindings =
      firsts Binding.key ((before.flatMap Located.bindings).map Binding.key) (ls.flatMap Located.bindings) := by
  induction ls generalizing before with
  | nil => rfl
  | cons l ls ih =>
    rw [piecesAlong, List.flatten_cons, List.flatMap_append, Located.bindings_piece, ih, List.flatMap_cons,
      firsts_append, Located.fresh]
    simp

end InteropBindings
