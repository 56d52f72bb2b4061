import InteropBindings.Proofs.Output.Merging
import InteropBindings.Proofs.Symbol.DottedNames

/-!
# Stubs of classes

The stub of a class is written when nothing has signatures for the symbol yet. So it is written for the first class of a
symbol, unless a function of the same symbol comes before all classes.

- a stub is that of a class which is declared first (`classComesFirst_of_stub_mem`);
- it comes once and before every extension (`stubComesFirst_iff`);
- `OutputRecords.route_stub_iff` says when the record of a class is as it should be.
-/

namespace InteropBindings

/-- The stub of a symbol comes once, before every extension of the symbol. -/
def StubComesFirst (q : QualifiedName) (className : String) (blocks : List Block) : Prop :=
  ∃ pre post, blocks = pre ++ .stub q className :: post ∧
    (∀ b ∈ pre, b.isStubOf q = false ∧ b.isExtensionOf q = false) ∧ ∀ b ∈ post, b.isStubOf q = false

/-- Whether a declaration is a class of a symbol. -/
def Located.IsClassOf (q : QualifiedName) (l : Located) : Prop :=
  ∃ c, l.declaration = .classDecl c ∧ l.qualifiedName = q

/-- The first class or function of a symbol is a class with a name. -/
def ClassComesFirst (q : QualifiedName) (className : String) (ls : List Located) : Prop :=
  ∃ l c, ls.find? (Located.merges q) = some l ∧ l.declaration = .classDecl c ∧ c.name = className

theorem Located.IsClassOf.merges {q : QualifiedName} {l : Located} (h : l.IsClassOf q) : l.merges q = true := by
  obtain ⟨c, hd, hq⟩ := h
  exact (merges_of_hasSignatures (by rw [hd]; rfl) q).mpr hq

/-! ## Stubs and extensions of pieces -/

/-- Stubs and extensions of a symbol come from its classes, and stubs only from a first one. -/
theorem Located.isClassOf_of_mem_piece {q : QualifiedName} {all before : List Located} {l : Located} {b : Block}
    (hb : b ∈ l.piece all before) (h : b.isStubOf q = true ∨ b.isExtensionOf q = true) : l.IsClassOf q := by
  rcases mem_piece hb with ⟨c, hd, _, rfl⟩ | ⟨c, hd, _, rfl⟩ | ⟨f, hd, rfl⟩ | ⟨l', a, _, _, _, rfl⟩
  · exact ⟨c, hd, by simpa [Block.isStubOf, Block.isExtensionOf] using h⟩
  · exact ⟨c, hd, by simpa [Block.isStubOf, Block.isExtensionOf] using h⟩
  · simp [Block.isStubOf, Block.isExtensionOf] at h
  · simp [Block.isStubOf, Block.isExtensionOf] at h

/-- The stub of a symbol stands where nothing is merged before. -/
theorem Located.stub_mem_piece_iff {q : QualifiedName} {className : String} {all before : List Located} {l : Located} :
    .stub q className ∈ l.piece all before ↔
      ∃ c, l.declaration = .classDecl c ∧ l.qualifiedName = q ∧ c.name = className ∧
        before.any (merges q) = false := by
  constructor
  · intro hb
    rcases mem_piece hb with ⟨c, hd, hm, h⟩ | ⟨c, hd, _, h⟩ | ⟨f, hd, h⟩ | ⟨l', a, _, _, _, h⟩
    · injection h with hq hn
      subst hq hn
      exact ⟨c, hd, rfl, rfl, hm⟩
    · cases h
    · cases h
    · cases h
  · rintro ⟨c, hd, rfl, rfl, hm⟩
    simp [piece, hd, hm]

/-- A block comes from a declaration, after the ones before it. -/
theorem exists_of_mem_blocks {all before ls : List Located} {b : Block} (h : b ∈ (piecesAlong all before ls).flatten) :
    ∃ xs l ys, ls = xs ++ l :: ys ∧ b ∈ l.piece all (before ++ xs) := by
  obtain ⟨piece, hpiece, hb⟩ := List.mem_flatten.mp h
  obtain ⟨xs, l, ys, hls, rfl⟩ := mem_piecesAlong hpiece
  exact ⟨xs, l, ys, hls, hb⟩

/-- Before the first class of a symbol there are neither stubs nor extensions of it. -/
theorem not_isStubOf_of_not_merges {q : QualifiedName} {all before ls : List Located}
    (hls : ls.any (Located.merges q) = false) {b : Block} (hb : b ∈ (piecesAlong all before ls).flatten) :
    b.isStubOf q = false ∧ b.isExtensionOf q = false := by
  obtain ⟨xs, l, ys, rfl, hpiece⟩ := exists_of_mem_blocks hb
  have hl : ¬ l.IsClassOf q := fun h => by simp [h.merges] at hls
  have h := mt (Located.isClassOf_of_mem_piece hpiece) hl
  simpa only [not_or, Bool.not_eq_true] using h

/-- After a declaration that is merged there are no stubs. -/
theorem not_isStubOf_of_merges {q : QualifiedName} {all before ls : List Located}
    (hm : before.any (Located.merges q) = true) {b : Block} (hb : b ∈ (piecesAlong all before ls).flatten) :
    b.isStubOf q = false := by
  obtain ⟨xs, l, ys, _, hb⟩ := exists_of_mem_blocks hb
  cases b with
  | stub q' className =>
    by_cases hq : q' = q
    · subst hq
      obtain ⟨_, _, _, _, hno⟩ := Located.stub_mem_piece_iff.mp hb
      simp [hm] at hno
    · simpa [Block.isStubOf] using hq
  | extension _ _ _ => rfl
  | function _ => rfl
  | «alias» _ _ => rfl

/-! ## The stub of a symbol -/

/-- The first declaration that is merged stands behind declarations that are not. -/
theorem find?_merges_eq_some_iff {q : QualifiedName} {l : Located} {ls : List Located} :
    ls.find? (Located.merges q) = some l ↔
      l.merges q = true ∧ ∃ xs ys, ls = xs ++ l :: ys ∧ xs.any (Located.merges q) = false := by
  rw [List.find?_eq_some_iff_append]
  simp only [List.any_eq_false, Bool.not_eq_true', Bool.not_eq_true]

/-- A stub of a symbol is that of a class which is declared first. -/
theorem classComesFirst_of_stub_mem {q : QualifiedName} {className : String} {ls : List Located}
    (hb : .stub q className ∈ blocksOf ls) : ClassComesFirst q className ls := by
  obtain ⟨xs, l, ys, hls, hpiece⟩ := exists_of_mem_blocks hb
  obtain ⟨c, hd, hq, hn, hno⟩ := Located.stub_mem_piece_iff.mp hpiece
  have hl : l.merges q = true := Located.IsClassOf.merges ⟨c, hd, hq⟩
  exact ⟨l, c, find?_merges_eq_some_iff.mpr ⟨hl, xs, ys, hls, hno⟩, hd, hn⟩

/-- **The stub of a symbol comes once and first** exactly when the first class or function of the symbol is a class. -/
theorem stubComesFirst_iff {q : QualifiedName} {className : String} {ls : List Located} :
    StubComesFirst q className (blocksOf ls) ↔ ClassComesFirst q className ls := by
  constructor
  · rintro ⟨pre, post, hblocks, _, _⟩
    apply classComesFirst_of_stub_mem
    rw [hblocks]
    exact List.mem_append_right _ List.mem_cons_self
  · rintro ⟨l, c, hfind, hd, rfl⟩
    obtain ⟨hl, xs, ys, rfl, hno⟩ := find?_merges_eq_some_iff.mp hfind
    obtain rfl : l.qualifiedName = q := (merges_of_hasSignatures (by rw [hd]; rfl) q).mp hl
    let all := xs ++ l :: ys
    let extensions := if l.fresh xs = [] then [] else [Block.extension l.qualifiedName c.name (l.fresh xs)]
    have hpiece : l.piece all xs = .stub l.qualifiedName c.name :: extensions := by
      simp only [Located.piece, hd, hno]
      rfl
    -- before the first class nothing is merged, and after it there is always something that has been
    refine ⟨(piecesAlong all [] xs).flatten, extensions ++ (piecesAlong all (xs ++ [l]) ys).flatten, ?_, ?_, ?_⟩
    · rw [blocksOf, piecesOf, piecesAlong_split, hpiece, List.flatten_append, List.flatten_cons, List.cons_append]
    · intro b hb
      exact not_isStubOf_of_not_merges hno hb
    · intro b hb
      rcases List.mem_append.mp hb with hb | hb
      · by_cases hf : l.fresh xs = []
        · simp [extensions, hf] at hb
        · simp only [extensions, if_neg hf, List.mem_singleton] at hb
          rw [hb]
          rfl
      · exact not_isStubOf_of_merges (by simp [hl]) hb

/-! ## Stubs of a run -/

namespace OutputRecords

/-- A class adds no text exactly when its symbol has signatures already and none of its members is new. -/
theorem code_emit_eq_empty_iff {table : SymbolTable} {before : List Located} {l : Located} {c : ClassDeclaration}
    (hd : l.declaration = .classDecl c) :
    (c.emit (scopeOf table l) (OutputRecord.addAll table {} before).signatures).code = "" ↔
      before.any (Located.merges l.qualifiedName) = true ∧ l.fresh before = [] := by
  have hempty : (chunkOf table (l.piece before before)).code.isEmpty = (l.piece before before).isEmpty :=
    OutputRecord.isEmpty_code_chunkOf fun b hb => Located.text_ne_empty_of_mem_piece table hb
  rw [emit_classDecl hd (OutputRecord.represents_addAll table before).signatures before, ← String.isEmpty_iff, hempty,
    List.isEmpty_iff]
  simp only [Located.piece, hd, List.append_eq_nil_iff]
  constructor
  · rintro ⟨hstub, hextension⟩
    refine ⟨?_, ?_⟩
    · split at hstub
      · assumption
      · cases hstub
    · split at hextension
      · assumption
      · cases hextension
  · rintro ⟨hm, hf⟩
    exact ⟨if_pos hm, if_pos hf⟩

/-- **When the stub of a class is written**: the record of a class has one stub of it, before every extension, and a
class of its symbol adds no text only after another one, exactly when the first class or function of its symbol in that
record is a class of its name. -/
theorem route_stub_iff (table : SymbolTable) (layout : OutputLayout) {files : List DeclarationFile}
    {file : DeclarationFile} {around : NamespacePath} {c : ClassDeclaration}
    (hfile : file ∈ files) (hp : table.isPlatform file.path = false) (hc : file.Declares around (.classDecl c)) :
    let q := QualifiedName.within around c.name
    let path := layout.outputPath c.name around file.path
    let ls := sentTo table layout files path
    ∃ r, (route files table layout).get? path = some r ∧ r.code = String.join ((blocksOf ls).map (Block.text table)) ∧
      ((StubComesFirst q c.name (blocksOf ls) ∧
        ∀ before l after c', ls = before ++ l :: after → l.declaration = .classDecl c' → l.qualifiedName = q →
          (c'.emit (scopeOf table l) (OutputRecord.addAll table {} before).signatures).code = "" →
            ∃ l' ∈ before, l'.IsClassOf q) ↔
        ClassComesFirst q c.name ls) := by
  intro q path ls
  have hmem : (⟨file.path, around, .classDecl c⟩ : Located) ∈ ls := by
    refine List.mem_filter.mpr ⟨(mem_visited table).mpr ⟨file, hfile, hp, rfl, hc, rfl⟩, ?_⟩
    exact decide_eq_true rfl
  have hr := OutputRecord.represents_addAll table ls
  refine ⟨_, get?_route_of_sentTo_ne_nil table layout (List.ne_nil_of_mem hmem), hr.code_eq, ?_⟩
  rw [stubComesFirst_iff]
  refine ⟨fun h => h.1, fun h => ⟨h, ?_⟩⟩
  intro before l after c' hls hd hq hcode
  obtain ⟨hm, _⟩ := (code_emit_eq_empty_iff hd).mp hcode
  obtain ⟨l', c₀, hfind, hd', _⟩ := h
  have hsome : (before.find? (Located.merges q)).isSome := by
    rw [List.find?_isSome, ← List.any_eq_true, ← hq]
    exact hm
  have hbefore : before.find? (Located.merges q) = some l' := by
    rw [hls, List.find?_append, Option.or_of_isSome hsome] at hfind
    exact hfind
  have hq' : l'.qualifiedName = q := (merges_of_hasSignatures (by rw [hd']; rfl) q).mp (List.find?_some hbefore)
  exact ⟨l', List.mem_of_find?_eq_some hbefore, c₀, hd', hq'⟩

/-- A class that is declared in two files. -/
def classInTwoFiles : List DeclarationFile :=
  [⟨⟨"in/a.d.ts"⟩, [.namespaceItem "app" [.declaration (.classDecl ⟨"Foo", []⟩)]]⟩,
   ⟨⟨"in/b.d.ts"⟩, [.namespaceItem "app" [.declaration (.classDecl ⟨"Foo", [.method "run" [] none]⟩)]]⟩]

/-- The class of the second file has its stub from the first one. -/
theorem route_stub_iff_classInTwoFiles :
    let table := SymbolTable.build classInTwoFiles {}
    let layout : OutputLayout := ⟨⟨"in"⟩, ⟨"out"⟩⟩
    let ls := sentTo table layout classInTwoFiles (layout.outputPath "Foo" ["app"] ⟨"in/b.d.ts"⟩)
    ls.length = 2 ∧ StubComesFirst (.within ["app"] "Foo") "Foo" (blocksOf ls) := by
  intro table layout ls
  have hfile : classInTwoFiles[1] ∈ classInTwoFiles := List.getElem_mem _
  have hp : table.isPlatform classInTwoFiles[1].path = false := by decide
  have hc : classInTwoFiles[1].Declares ["app"] (.classDecl ⟨"Foo", [.method "run" [] none]⟩) :=
    ⟨_, List.mem_cons_self, .inside List.mem_cons_self (.here _)⟩
  obtain ⟨r, _, _, h⟩ := route_stub_iff table layout hfile hp hc
  have hls : ls = [⟨⟨"in/a.d.ts"⟩, ["app"], .classDecl ⟨"Foo", []⟩⟩,
    ⟨⟨"in/b.d.ts"⟩, ["app"], .classDecl ⟨"Foo", [.method "run" [] none]⟩⟩] := by decide +kernel
  have hfirst : ls.find? (Located.merges (.within ["app"] "Foo")) =
      some ⟨⟨"in/a.d.ts"⟩, ["app"], .classDecl ⟨"Foo", []⟩⟩ := by
    rw [hls]
    rfl
  exact ⟨by rw [hls]; rfl, (h.mpr ⟨_, _, hfirst, rfl, rfl⟩).1⟩

/-- A class after a function of its name. -/
def functionThenClass : List DeclarationFile :=
  [⟨⟨"in/a.d.ts"⟩,
    [.declaration (.function ⟨"Foo", [], some (.keyword .void)⟩), .declaration (.classDecl ⟨"Foo", []⟩)]⟩]

/-- **The stub of a class after a function of its name is missing**: the record holds the function alone. -/
theorem route_functionThenClass_without_stub :
    let table := SymbolTable.build functionThenClass {}
    let layout : OutputLayout := ⟨⟨"in"⟩, ⟨"out"⟩⟩
    let ls := sentTo table layout functionThenClass (layout.outputPath "Foo" [] ⟨"in/a.d.ts"⟩)
    (∃ l ∈ ls, l.IsClassOf ⟨"Foo"⟩) ∧ ¬ StubComesFirst ⟨"Foo"⟩ "Foo" (blocksOf ls) ∧
      ∃ r, (route functionThenClass table layout).get? (layout.outputPath "Foo" [] ⟨"in/a.d.ts"⟩) = some r ∧
        r.code = "@JS('Foo')\nexternal void Foo();\n\n" := by
  intro table layout ls
  have hls : ls = [⟨⟨"in/a.d.ts"⟩, [], .function ⟨"Foo", [], some (.keyword .void)⟩⟩,
    ⟨⟨"in/a.d.ts"⟩, [], .classDecl ⟨"Foo", []⟩⟩] := by decide
  refine ⟨?_, ?_, ?_⟩
  · exact ⟨_, hls ▸ List.mem_cons_of_mem _ List.mem_cons_self, _, rfl, rfl⟩
  · have hfirst : ls.find? (Located.merges ⟨"Foo"⟩) =
        some ⟨⟨"in/a.d.ts"⟩, [], .function ⟨"Foo", [], some (.keyword .void)⟩⟩ := by
      rw [hls]
      rfl
    rw [stubComesFirst_iff]
    rintro ⟨l, c, hfind, hd, _⟩
    rw [hfirst] at hfind
    cases hfind
    cases hd
  · refine ⟨_, get?_route_of_sentTo_ne_nil table layout (by show ls ≠ []; rw [hls]; exact List.cons_ne_nil _ _), ?_⟩
    rw [(OutputRecord.represents_addAll table ls).code_eq, hls]
    decide +kernel

end OutputRecords

end InteropBindings
