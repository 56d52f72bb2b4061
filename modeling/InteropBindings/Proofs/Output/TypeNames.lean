import InteropBindings.Proofs.Output.Aliases
import InteropBindings.Proofs.Output.Layout
import InteropBindings.Proofs.Output.Stubs

/-!
# Names of types in a binding file

A stub, an extension and a type alias each declare a type-level name; two blocks of one file may declare the same one.

- a symbol has one stub and one type alias at most (`pairwise_stubs`, `pairwise_aliases`);
- its extensions, of which there is one for each class that adds members, all have one name and hold different members
  (`pairwise_bindings`);
- an extension never has the name of a stub or a type alias. What lies in one file has names of one length, and the name
  of an extension is longer (`OutputLayout.name_ne_of_pathOf_eq`).

`OutputRecords.route_typeNames` puts these together.
-/

namespace InteropBindings

open Text InteropBindings.Path

/-! ## Length of file names -/

namespace Text

/-- A slash or a backslash. -/
def isSlash (c : Char) : Bool := c == '/' || c == '\\'

/-- The number of characters behind the last slash. -/
def lastLength (cs : List Char) : Nat := cs.reverse.findIdx isSlash

theorem lastLength_congr {cs ds : List Char} (h : cs.map isSlash = ds.map isSlash) : lastLength cs = lastLength ds := by
  have hmap : ∀ cs : List Char, lastLength cs = (cs.map isSlash).reverse.findIdx id := by
    intro cs
    rw [← List.map_reverse, List.findIdx_map]
    rfl
  rw [hmap, hmap, h]

/-- Characters that are no slashes add to the length. -/
theorem lastLength_append {ds : List Char} (h : ∀ d ∈ ds, isSlash d = false) (cs : List Char) :
    lastLength (cs ++ ds) = lastLength cs + ds.length := by
  have hnone : ds.reverse.findIdx isSlash = ds.reverse.length := by
    rw [List.findIdx_eq_length]
    intro d hd
    exact h d (List.mem_reverse.mp hd)
  rw [lastLength, List.reverse_append, List.findIdx_append, hnone, if_neg (Nat.lt_irrefl _), List.length_reverse]
  rfl

/-- What stands before a slash does not matter. -/
theorem lastLength_append_of_slash (cs ds : List Char) : lastLength (cs ++ '/' :: ds) = lastLength ds := by
  have hle : ds.reverse.findIdx isSlash ≤ ds.reverse.length := List.findIdx_le_length
  have hslash : ('/' :: cs.reverse).findIdx isSlash = 0 := by
    rw [List.findIdx_cons]
    rfl
  rw [lastLength, lastLength, List.reverse_append, List.reverse_cons, List.append_assoc, List.singleton_append,
    List.findIdx_append, hslash]
  split
  · rfl
  · omega

/-- Whether the lowercase of a character is a slash does not depend on the text around it. -/
theorem map_isSlash_lowerBetween (before after before' after' : List Char) (c : Char) :
    (lowerBetween before c after).map isSlash = (lowerBetween before' c after').map isSlash := by
  have hsigma : ∀ b : Bool, isSlash (Char.ofNat (if b then 0x3C2 else 0x3C3)) = false := by decide
  unfold lowerBetween
  split
  · rfl
  · split
    · rw [List.map_singleton, List.map_singleton, hsigma, hsigma]
    · rfl

/-- The slashes in the lowercase of a text do not depend on what goes on behind it. -/
theorem map_isSlash_lowercaseAfter (before cs ds : List Char) :
    (lowercaseAfter before (cs ++ ds)).map isSlash =
      (lowercaseAfter before cs).map isSlash ++ (lowercaseAfter (cs.reverse ++ before) ds).map isSlash := by
  induction cs generalizing before with
  | nil => rfl
  | cons c cs ih =>
    rw [List.cons_append, lowercaseAfter, lowercaseAfter, List.map_append, ih, map_isSlash_lowerBetween _ _ before cs,
      List.map_append, List.append_assoc, List.reverse_cons, List.append_assoc]
    rfl

/-- The lowercase of a longer name is longer behind its last slash. -/
theorem lastLength_lower_append_extension (name : String) :
    lastLength (lower (name ++ "Extension")).toList = lastLength (lower name).toList + 9 := by
  let before := name.toList.reverse ++ []
  have hextension : lowercaseAfter before "Extension".toList = "extension".toList :=
    lowercaseAfter_ascii before (by simp)
  have hmap : (lowercase (name.toList ++ "Extension".toList)).map isSlash =
      (lowercase name.toList ++ "extension".toList).map isSlash := by
    rw [lowercase, map_isSlash_lowercaseAfter, hextension, List.map_append]
    rfl
  rw [lower, lower, String.toList_ofList, String.toList_ofList, String.toList_append, lastLength_congr hmap,
    lastLength_append (by simp [isSlash])]
  rfl

end Text

theorem Path.lastLength_slashed (s : String) : lastLength (slashed ⟨s⟩).toList = lastLength s.toList := by
  apply lastLength_congr
  rw [slashed, RawText.shown_ofString, replaceChar, String.toList_ofList, List.map_map]
  apply List.map_congr_left
  intro c _
  rw [Function.comp_apply]
  split
  · next h => rw [h]; rfl
  · rfl

/-- The last name of a path is that of what follows it. -/
theorem Path.lastLength_slashed_join (p : Path) (s : String) :
    lastLength (p.join s).slashed.toList = lastLength s.toList := by
  by_cases hs : isAbsolute ⟨s⟩ = true
  · rw [join, push, if_pos hs, lastLength_slashed]
  · rw [join, push_eq p (by simpa using hs), slashed_append_ofString, String.toList_append]
    rcases p.front_spec with hempty | hend
    · have hnone : slashed ⟨""⟩ = "" := by decide
      rw [hempty, hnone, ← String.toList_append, String.empty_append, lastLength_slashed]
    · obtain ⟨front, hfront⟩ := RawText.endsWith_iff.mp hend
      have hslash : (slashed ⟨"/"⟩).toList = ['/'] := by decide
      rw [hfront, slashed_append_ofString, String.toList_append, List.append_assoc, hslash, List.singleton_append,
        lastLength_append_of_slash, lastLength_slashed]

theorem OutputLayout.lastLength_pathOf (layout : OutputLayout) (l : Located) :
    lastLength (layout.pathOf l).toList = lastLength (lower l.declaration.name).toList + 5 := by
  rw [pathOf, outputPath, lastLength_slashed_join, fileName, String.toList_append,
    lastLength_append (by simp [isSlash])]
  rfl

/-- **What lies in one file has names of one length.** So none has the name of an extension of another. -/
theorem OutputLayout.name_ne_of_pathOf_eq {layout : OutputLayout} {l l' : Located}
    (h : layout.pathOf l = layout.pathOf l') : l.declaration.name ≠ l'.declaration.name ++ "Extension" := by
  intro hname
  have hlength := layout.lastLength_pathOf l
  rw [h, layout.lastLength_pathOf l', hname, lastLength_lower_append_extension] at hlength
  omega

/-! ## Names of blocks -/

namespace Block

/-- The type-level name that a block declares. -/
def typeName? : Block → Option String
  | .stub _ className => some className
  | .extension _ className _ => some (className ++ "Extension")
  | .alias _ decl => some decl.name
  | .function _ => none

/-- The symbol that a block belongs to. -/
def symbol : Block → QualifiedName
  | .stub name _ | .extension name _ _ => name
  | .function b => b.name
  | .alias origin _ => origin.qualifiedName

/-- Whether a block is a stub. -/
def isStub : Block → Bool
  | .stub _ _ => true
  | _ => false

/-- Whether a block is a type alias. -/
def isAlias : Block → Bool
  | .alias _ _ => true
  | _ => false

theorem isStubOf_symbol {b : Block} (h : b.isStub = true) : b.isStubOf b.symbol = true := by
  cases b with
  | stub q className => exact beq_self_eq_true q
  | extension _ _ _ => cases h
  | function _ => cases h
  | «alias» _ _ => cases h

theorem isAliasOf_symbol {b : Block} (h : b.isAlias = true) : b.isAliasOf b.symbol = true := by
  cases b with
  | stub _ _ => cases h
  | extension _ _ _ => cases h
  | function _ => cases h
  | «alias» origin _ => exact beq_self_eq_true origin.qualifiedName

/-- What two blocks that declare one name have to do with each other: either both are extensions or none is. If they
belong to one symbol, two extensions hold no member of one signature, and other blocks are its stub and its type alias.
-/
structure MayShareName (b b' : Block) : Prop where
  isExtension_eq : b.isExtension = b'.isExtension
  of_symbol_eq : b.symbol = b'.symbol →
    (b.isExtension = true ∧ ∀ x ∈ b.bindings, ∀ y ∈ b'.bindings, x.signature ≠ y.signature) ∨
      (b.isStub = true ∧ b'.isAlias = true) ∨ (b.isAlias = true ∧ b'.isStub = true)

end Block

/-- A named block is made from a declaration, whose name it declares as it is or as that of an extension. -/
theorem Located.exists_of_typeName? {all before : List Located} {l : Located} {b : Block} (hall : l ∈ all)
    (h : b ∈ l.piece all before) {n : String} (hn : b.typeName? = some n) :
    ∃ l' ∈ all, n = if b.isExtension then l'.declaration.name ++ "Extension" else l'.declaration.name := by
  rcases mem_piece h with ⟨c, hd, _, rfl⟩ | ⟨c, hd, _, rfl⟩ | ⟨f, _, rfl⟩ | ⟨l', a, hl', hd, _, rfl⟩
  · exact ⟨l, hall, by rw [hd]; exact (Option.some.inj hn).symm⟩
  · exact ⟨l, hall, by rw [hd]; exact (Option.some.inj hn).symm⟩
  · cases hn
  · exact ⟨l', hl', by rw [hd]; exact (Option.some.inj hn).symm⟩

/-! ## Blocks of one symbol -/

/-- Of the blocks of a piece only the first can be a stub, only the last an alias. -/
theorem Located.pairwise_piece (all before : List Located) (l : Located) :
    (l.piece all before).Pairwise fun b b' => b'.isStub = false ∧ (b.isAlias = true → b'.isAlias = false) := by
  cases hd : l.declaration with
  | classDecl c =>
    simp only [piece, hd]
    split <;> split <;> simp [Block.isStub, Block.isAlias]
  | interface name => simp [piece, hd]
  | function f =>
    simp only [piece, hd, List.pairwise_map]
    exact List.pairwise_of_forall fun _ _ => ⟨rfl, fun _ => rfl⟩
  | «alias» a =>
    simp only [piece, hd]
    split
    · exact .nil
    · rw [lastAlias]
      cases (all.filterMap (aliasBlock? l.qualifiedName)).getLast? with
      | none => exact .nil
      | some b => exact List.pairwise_singleton _ _

/-- **Two stubs belong to different symbols.** -/
theorem pairwise_stubs (all before ls : List Located) : (piecesAlong all before ls).flatten.Pairwise fun b b' =>
    b.isStub = true → b'.isStub = true → b.symbol ≠ b'.symbol := by
  induction ls generalizing before with
  | nil => exact .nil
  | cons l ls ih =>
    rw [piecesAlong, List.flatten_cons, List.pairwise_append]
    refine ⟨?_, ih _, ?_⟩
    · apply (Located.pairwise_piece all before l).imp
      rintro b b' ⟨hno, _⟩ _ hstub' _
      rw [hno] at hstub'
      cases hstub'
    · -- a stub in a piece comes from a class, and behind a class of a symbol there are no stubs of it
      intro b hb b' hb' hstub hstub' hsymbol
      have hl := (Located.isClassOf_of_mem_piece hb (.inl (Block.isStubOf_symbol hstub))).merges
      have hno := not_isStubOf_of_merges (q := b.symbol) (by rw [List.any_append, List.any_cons, hl]; simp) hb'
      rw [hsymbol, Block.isStubOf_symbol hstub'] at hno
      cases hno

/-- **Two type aliases belong to different symbols.** -/
theorem pairwise_aliases (ls : List Located) : (blocksOf ls).Pairwise fun b b' =>
    b.isAlias = true → b'.isAlias = true → b.symbol ≠ b'.symbol := by
  rw [blocksOf, List.pairwise_flatten]
  constructor
  · intro piece hpiece
    obtain ⟨before, l, _, _, rfl⟩ := mem_piecesAlong hpiece
    apply (Located.pairwise_piece ls _ l).imp
    rintro b b' ⟨_, hno⟩ halias halias' _
    rw [hno halias] at halias'
    cases halias'
  · rw [List.pairwise_iff_getElem]
    intro i j hi hj hij b hb b' hb' halias halias' hsymbol
    have hpieces := List.pairwise_iff_getElem.mp (pairwise_piecesAlong b.symbol [] fun l hl => hl) i j hi hj hij
    refine hpieces (List.any_eq_true.mpr ⟨b, hb, Block.isAliasOf_symbol halias⟩) (List.any_eq_true.mpr ⟨b', hb', ?_⟩)
    rw [hsymbol]
    exact Block.isAliasOf_symbol halias'

/-- What a block binds, it binds for its symbol. -/
theorem Located.name_of_mem_bindings {all before : List Located} {l : Located} {b : Block} (h : b ∈ l.piece all before)
    {x : Binding} (hx : x ∈ b.bindings) : x.name = b.symbol := by
  rcases mem_piece h with ⟨c, _, _, rfl⟩ | ⟨c, _, _, rfl⟩ | ⟨f, _, rfl⟩ | ⟨l', a, _, _, _, rfl⟩
  · cases hx
  · rw [Binding.name, origin_of_mem_bindings (mem_of_mem_firsts Binding.key hx).1]
    rfl
  · rw [List.mem_singleton.mp hx]
    rfl
  · cases hx

/-- **No signature of a symbol is bound in two blocks.** -/
theorem pairwise_bindings (ls : List Located) :
    (blocksOf ls).Pairwise fun b b' => ∀ x ∈ b.bindings, ∀ y ∈ b'.bindings, x.key ≠ y.key := by
  have hnodup : ((blocksOf ls).flatMap fun b => b.bindings.map Binding.key).Nodup := by
    rw [← List.map_flatMap, bindings_blocksOf]
    exact nodup_map_firsts Binding.key _ _
  refine (List.pairwise_flatMap.mp hnodup).2.imp ?_
  intro b b' h x hx y hy
  exact h x.key (List.mem_map_of_mem hx) y.key (List.mem_map_of_mem hy)

/-- Two named blocks are extensions, or one of them is a stub and the other one an alias, unless both are of one kind.
-/
theorem Block.kinds_of_typeName? {b b' : Block} {n : String} (hn : b.typeName? = some n) (hn' : b'.typeName? = some n)
    (hstubs : ¬(b.isStub = true ∧ b'.isStub = true)) (haliases : ¬(b.isAlias = true ∧ b'.isAlias = true))
    (h : b.isExtension = b'.isExtension) :
    (b.isExtension = true ∧ b'.isExtension = true) ∨ (b.isStub = true ∧ b'.isAlias = true) ∨
      (b.isAlias = true ∧ b'.isStub = true) := by
  cases b <;> cases b' <;> simp_all [typeName?, isStub, isAlias, isExtension]

/-- **Which blocks of declarations for one path declare one name.** -/
theorem pairwise_mayShareName {layout : OutputLayout} {path : String} {ls : List Located}
    (hpath : ∀ l ∈ ls, layout.pathOf l = path) :
    (blocksOf ls).Pairwise fun b b' => ∀ n, b.typeName? = some n → b'.typeName? = some n → b.MayShareName b' := by
  apply (((pairwise_stubs ls [] ls).and (pairwise_aliases ls)).and (pairwise_bindings ls)).imp_of_mem
  rintro b b' hb hb' ⟨⟨hstubs, haliases⟩, hbindings⟩ n hn hn'
  obtain ⟨before, l, after, hls, hpiece⟩ := exists_of_mem_blocks hb
  obtain ⟨before', l', after', hls', hpiece'⟩ := exists_of_mem_blocks hb'
  obtain ⟨o, ho, hname⟩ := Located.exists_of_typeName? (hls ▸ by simp) hpiece hn
  obtain ⟨o', ho', hname'⟩ := Located.exists_of_typeName? (hls' ▸ by simp) hpiece' hn'
  have hsame : layout.pathOf o = layout.pathOf o' := (hpath o ho).trans (hpath o' ho').symm
  have hextension : b.isExtension = b'.isExtension := by
    cases he : b.isExtension <;> cases he' : b'.isExtension
    · rfl
    · rw [he, if_neg Bool.false_ne_true] at hname
      rw [he', if_pos rfl, hname] at hname'
      exact absurd hname' (OutputLayout.name_ne_of_pathOf_eq hsame)
    · rw [he, if_pos rfl] at hname
      rw [he', if_neg Bool.false_ne_true, hname] at hname'
      exact absurd hname'.symm (OutputLayout.name_ne_of_pathOf_eq hsame.symm)
    · rfl
  refine ⟨hextension, fun hsymbol => ?_⟩
  rcases Block.kinds_of_typeName? hn hn' (fun h => hstubs h.1 h.2 hsymbol)
    (fun h => haliases h.1 h.2 hsymbol) hextension
    with ⟨he, _⟩ | hmixed
  · refine .inl ⟨he, fun x hx y hy hsignature => hbindings x hx y hy ?_⟩
    rw [Binding.key, Binding.key, Located.name_of_mem_bindings hpiece hx, Located.name_of_mem_bindings hpiece' hy,
      hsymbol, hsignature]
  · exact .inr hmixed

/-! ## Names in the records of a run -/

/-- Whether a text declares a type-level name: as a class, an extension or a type alias. -/
def DeclaresTypeName (name text : String) : Prop :=
  ∃ keyword ∈ ["class ", "extension ", "typedef "], ∃ pre post, text = pre ++ keyword ++ name ++ " " ++ post

/-- The name of a block is declared in its text. -/
theorem Located.declaresTypeName (table : SymbolTable) {all before : List Located} {l : Located} {b : Block}
    (h : b ∈ l.piece all before) {n : String} (hn : b.typeName? = some n) : DeclaresTypeName n (b.text table) := by
  rcases mem_piece h with ⟨c, _, _, rfl⟩ | ⟨c, _, hf, rfl⟩ | ⟨f, _, rfl⟩ | ⟨l', a, _, _, _, rfl⟩
  · obtain rfl : c.name = n := Option.some.inj hn
    refine ⟨"class ", by simp, boundTo l.qualifiedName ++ "@staticInterop\n",
      "\x7b\n  external factory " ++ c.name ++ "(JSObject? opt_options);\n\x7d\n\n", ?_⟩
    simp only [Block.text, classStub, ← String.toList_inj, String.toList_append, List.append_assoc]
    rfl
  · obtain rfl : c.name ++ "Extension" = n := Option.some.inj hn
    have hmembers : ((l.fresh before).map (Binding.text table)).isEmpty = false := by simp [hf]
    refine ⟨"extension ", by simp, "", "on " ++ c.name ++ " \x7b\n" ++
      String.join ((l.fresh before).map (Binding.text table)) ++ "\x7d\n\n", ?_⟩
    rw [Block.text, extensionBlock, hmembers, if_neg Bool.false_ne_true]
    simp only [← String.toList_inj, String.toList_append, List.append_assoc]
    rfl
  · cases hn
  · obtain rfl : a.name = n := Option.some.inj hn
    refine ⟨"typedef ", by simp, boundTo ((OutputRecords.scopeOf table l').qualify a.name) ++ "@staticInterop\n",
      "= " ++ (OutputRecords.scopeOf table l').typeName? a.lookedUp ++ ";\n\n", ?_⟩
    simp only [Block.text, AliasDeclaration.emit, ← String.toList_inj, String.toList_append, List.append_assoc]
    rfl

namespace OutputRecords

/-- **Type-level names in a record of a run.** The text of a record is that of its blocks, and the name of a block is
declared in its text. Two stubs belong to different symbols, and so do two type aliases. Two blocks declare one name
only if both are extensions or none is; if they belong to one symbol, they are extensions of it without a common
signature, or its stub and its type alias. -/
theorem route_typeNames {files : List DeclarationFile} {table : SymbolTable} {layout : OutputLayout} {path : String}
    {r : OutputRecord} (h : (route files table layout).get? path = some r) :
    let blocks := blocksOf (sentTo table layout files path)
    r.code = String.join (blocks.map (Block.text table)) ∧
    (∀ b ∈ blocks, ∀ n, b.typeName? = some n → DeclaresTypeName n (b.text table)) ∧
    (blocks.Pairwise fun b b' => b.isStub = true → b'.isStub = true → b.symbol ≠ b'.symbol) ∧
    (blocks.Pairwise fun b b' => b.isAlias = true → b'.isAlias = true → b.symbol ≠ b'.symbol) ∧
    blocks.Pairwise fun b b' => ∀ n, b.typeName? = some n → b'.typeName? = some n → b.MayShareName b' := by
  intro blocks
  have hpath : ∀ l ∈ sentTo table layout files path, layout.pathOf l = path :=
    fun l hl => of_decide_eq_true (List.mem_filter.mp hl).2
  refine ⟨(represents_of_get?_route h).code_eq, ?_, pairwise_stubs _ [] _, pairwise_aliases _,
    pairwise_mayShareName hpath⟩
  intro b hb n hn
  obtain ⟨before, l, after, _, hpiece⟩ := exists_of_mem_blocks hb
  exact Located.declaresTypeName table hpiece hn

/-- A class that is declared in two parts with different members. -/
def classInTwoParts : List DeclarationFile :=
  [⟨⟨"in/a.d.ts"⟩,
    [.declaration (.classDecl ⟨"Foo", [.method "a" [] none]⟩),
      .declaration (.classDecl ⟨"Foo", [.method "b" [] none]⟩)]⟩]

/-- The class has one stub, and its two extensions have no signature in common. -/
theorem route_typeNames_classInTwoParts :
    let table := SymbolTable.build classInTwoParts {}
    let layout : OutputLayout := ⟨⟨"in"⟩, ⟨"out"⟩⟩
    let blocks := blocksOf (sentTo table layout classInTwoParts "out/a/foo.dart")
    blocks.map Block.typeName? = [some "Foo", some "FooExtension", some "FooExtension"] ∧
      blocks.Pairwise fun b b' => ∀ n, b.typeName? = some n → b'.typeName? = some n → b.MayShareName b' := by
  intro table layout blocks
  have hsent : sentTo table layout classInTwoParts "out/a/foo.dart" ≠ [] := by decide
  obtain ⟨_, _, _, _, h⟩ := route_typeNames (get?_route_of_sentTo_ne_nil table layout hsent)
  exact ⟨by decide, h⟩

/-- **The name of an extension may come twice**: a class in two parts has two extensions. -/
theorem not_typeNames_once :
    let table := SymbolTable.build classInTwoParts {}
    let layout : OutputLayout := ⟨⟨"in"⟩, ⟨"out"⟩⟩
    ¬((blocksOf (sentTo table layout classInTwoParts "out/a/foo.dart")).filterMap Block.typeName?).Nodup ∧
      ∃ r, (route classInTwoParts table layout).get? "out/a/foo.dart" = some r ∧
        r.code = classStub ⟨"Foo"⟩ "Foo" ++ "extension FooExtension on Foo \x7b\n  external JSObject a();\n\x7d\n\n" ++
          "extension FooExtension on Foo \x7b\n  external JSObject b();\n\x7d\n\n" := by
  intro table layout
  refine ⟨by decide, ?_⟩
  have hsent : sentTo table layout classInTwoParts "out/a/foo.dart" ≠ [] := by decide
  refine ⟨_, get?_route_of_sentTo_ne_nil table layout hsent, ?_⟩
  rw [(OutputRecord.represents_addAll table _).code_eq]
  decide +kernel

end OutputRecords

end InteropBindings
