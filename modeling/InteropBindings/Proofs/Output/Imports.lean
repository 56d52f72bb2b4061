import InteropBindings.Proofs.Output.Aliases

/-!
# Imports of a record

A record needs the imports of the types that its text shows, and of no others. What it shows is told by the declarations
that are sent to it (`Shows`): the types of what is declared first under its signature, and the types that aliases are
declared to be last.

- a type needs an import when it refers to a symbol of another file (`Scope.import?_eq_some_iff`);
- the blocks of a record are annotated with what is shown, and spell it out (`shows_iff_annotated`,
  `Block.Annotated.holds_text`);
- together these say what a record of a run imports (`OutputRecords.route_imports_iff_shown`).
-/

namespace InteropBindings

/-! ## Text in text -/

/-- Whether a text holds another one somewhere. -/
def Text.Holds (whole part : String) : Prop := ∃ before after, whole = before ++ part ++ after

namespace Text.Holds

variable {whole part : String}

theorem refl (part : String) : Holds part part := ⟨"", "", by simp⟩

theorem append_left (h : Holds whole part) (more : String) : Holds (more ++ whole) part := by
  obtain ⟨before, after, rfl⟩ := h
  exact ⟨more ++ before, after, by simp [String.append_assoc]⟩

theorem append_right (h : Holds whole part) (more : String) : Holds (whole ++ more) part := by
  obtain ⟨before, after, rfl⟩ := h
  exact ⟨before, after ++ more, by simp [String.append_assoc]⟩

theorem join {wholes : List String} (hm : whole ∈ wholes) (h : Holds whole part) : Holds (String.join wholes) part := by
  obtain ⟨before, after, rfl⟩ := List.append_of_mem hm
  rw [String.join_append, String.join_cons]
  exact (h.append_right _).append_left _

/-- Listed texts hold what one of them holds. -/
theorem listed (sep : String) {wholes : List String} (hm : whole ∈ wholes) (h : Holds whole part) :
    Holds (Text.listed sep wholes) part := by
  induction wholes with
  | nil => cases hm
  | cons w ws ih =>
    cases ws with
    | nil =>
      rw [List.mem_singleton] at hm
      exact hm ▸ h
    | cons w' ws =>
      rw [Text.listed]
      · rcases List.mem_cons.mp hm with rfl | hm
        · exact (h.append_right _).append_right _
        · exact (ih hm).append_left _
      · exact fun he => List.cons_ne_nil _ _ he

end Text.Holds

/-! ## Types that need an import -/

/-- A type without its array levels. -/
def TypeNode.core : TypeNode → TypeNode
  | .array element => element.core
  | .reference name => .reference name
  | .keyword k => .keyword k
  | .literal members => .literal members
  | .other => .other

/-- A type refers to a name when that is left of it without its array levels. -/
theorem TypeNode.referenced?_eq_some_iff {t : TypeNode} {name : String} :
    t.referenced? = some name ↔ t.core = .reference name := by
  induction t using TypeNode.referenced?.induct with
  | case1 name' => simp [referenced?, core]
  | case2 element ih => rw [referenced?, core, ih]
  | case3 k => simp [referenced?, core]
  | case4 members => simp [referenced?, core]
  | case5 => simp [referenced?, core]

/-- Whether a type refers to a symbol of another file: without its array levels it is a name, and what has the name here
is a symbol whose file is neither a platform file nor this one. -/
def Scope.RefersOutside (s : Scope) (t : TypeNode) (q : QualifiedName) : Prop :=
  ∃ name file, t.core = .reference name ∧ s.qualify name = q ∧ s.table.lookup q = some file ∧
    s.table.isPlatform file = false ∧ file.same s.file = false

/-- **A type needs an import when it refers to a symbol of another file.** -/
theorem Scope.import?_eq_some_iff {s : Scope} {t : TypeNode} {i : String} :
    s.import? t = some i ↔ ∃ q, s.RefersOutside t q ∧ importPath q = i := by
  simp only [import?, Option.bind_eq_bind, Option.bind_eq_some_iff, TypeNode.referenced?_eq_some_iff]
  constructor
  · rintro ⟨name, hcore, file, hfile, himport⟩
    split at himport
    · cases himport
    · next hno =>
      rw [Bool.or_eq_true, not_or, Bool.not_eq_true, Bool.not_eq_true] at hno
      exact ⟨_, ⟨name, file, hcore, rfl, hfile, hno.2, hno.1⟩, Option.some.inj himport⟩
  · rintro ⟨_, ⟨name, file, hcore, rfl, hfile, hplatform, hsame⟩, rfl⟩
    exact ⟨name, hcore, file, hfile, by simp [hplatform, hsame]⟩

/-- The imports of types that may be left out are those of the types that are there. -/
theorem Scope.mem_imports_iff {s : Scope} {types : List (Option TypeNode)} {i : String} :
    i ∈ s.imports types ↔ ∃ t, some t ∈ types ∧ ∃ q, s.RefersOutside t q ∧ importPath q = i := by
  simp only [imports, List.mem_filterMap, Option.bind_eq_some_iff, import?_eq_some_iff]
  constructor
  · rintro ⟨_, hmem, t, rfl, ht⟩
    exact ⟨t, hmem, ht⟩
  · rintro ⟨t, hmem, ht⟩
    exact ⟨some t, hmem, t, rfl, ht⟩

/-! ## Types that are shown -/

/-- A type that the declarations sent to a record let its text show, and the declaration that it stands in. -/
inductive Shows (ls : List Located) : Located → TypeNode → Prop
  /-- The types of what is declared first under its signature. -/
  | bound {b : Binding} {t : TypeNode} :
      (ls.flatMap Located.bindings).find? (fun b' => b'.key = b.key) = some b → some t ∈ b.bindable.types →
        Shows ls b.origin t
  /-- What an alias is declared to be last, unless it stands for plain objects. -/
  | aliased {l : Located} {a : AliasDeclaration} :
      IsLastAlias ls l a → a.aliased.isObjectLike = false → Shows ls l a.aliased

/-- A type that stands in a block, and the declaration that it comes from. -/
inductive Block.Annotated : Block → Located → TypeNode → Prop
  | bound {block : Block} {b : Binding} {t : TypeNode} :
      b ∈ block.bindings → some t ∈ b.bindable.types → Annotated block b.origin t
  | aliased {l : Located} {a : AliasDeclaration} : a.aliased.isObjectLike = false → Annotated (.alias l a) l a.aliased

/-- **What is shown stands in a block.** -/
theorem shows_iff_annotated {ls : List Located} {l : Located} {t : TypeNode} :
    Shows ls l t ↔ ∃ block ∈ blocksOf ls, block.Annotated l t := by
  constructor
  · rintro (⟨hfirst, ht⟩ | ⟨hlast, hobject⟩)
    · rw [← mem_firsts_nil_iff, ← bindings_blocksOf, List.mem_flatMap] at hfirst
      obtain ⟨block, hblock, hb⟩ := hfirst
      exact ⟨block, hblock, .bound hb ht⟩
    · exact ⟨_, alias_mem_blocksOf_iff.mpr hlast, .aliased hobject⟩
  · rintro ⟨block, hblock, ⟨hb, ht⟩ | hobject⟩
    · refine .bound ?_ ht
      rw [← mem_firsts_nil_iff, ← bindings_blocksOf]
      exact List.mem_flatMap.mpr ⟨block, hblock, hb⟩
    · exact .aliased (alias_mem_blocksOf_iff.mp hblock) hobject

section

variable {table : SymbolTable}

theorem Binding.mem_imports_iff {b : Binding} {i : String} :
    i ∈ b.imports table ↔ ∃ t q, some t ∈ b.bindable.types ∧
      (OutputRecords.scopeOf table b.origin).RefersOutside t q ∧ importPath q = i := by
  rw [imports, Scope.mem_imports_iff]
  simp only [exists_and_left]

/-- The imports of an alias are those of its type, unless it stands for plain objects. -/
theorem AliasDeclaration.mem_imports_iff {a : AliasDeclaration} {s : Scope} {i : String} :
    i ∈ (a.emit s).imports ↔ a.aliased.isObjectLike = false ∧ ∃ q, s.RefersOutside a.aliased q ∧ importPath q = i := by
  rw [emit, Scope.mem_imports_iff, lookedUp]
  cases ho : a.aliased.isObjectLike <;> simp

theorem Block.mem_imports_of_mem_bindings {block : Block} {b : Binding} {i : String} (hb : b ∈ block.bindings)
    (hi : i ∈ b.imports table) : i ∈ block.imports table := by
  cases block with
  | stub name className => cases hb
  | extension name className members => exact List.mem_flatMap.mpr ⟨b, hb, hi⟩
  | function b' =>
    obtain rfl := List.mem_singleton.mp hb
    exact hi
  | «alias» l a => cases hb

/-- The imports of a block are those of the types that stand in it. -/
theorem Block.mem_imports_iff {block : Block} {i : String} :
    i ∈ block.imports table ↔ ∃ l t q, block.Annotated l t ∧ (OutputRecords.scopeOf table l).RefersOutside t q ∧
      importPath q = i := by
  constructor
  · intro hi
    have hof : ∀ b ∈ block.bindings, i ∈ b.imports table → ∃ l t q, block.Annotated l t ∧
        (OutputRecords.scopeOf table l).RefersOutside t q ∧ importPath q = i := by
      intro b hb hi
      obtain ⟨t, q, ht, hq⟩ := Binding.mem_imports_iff.mp hi
      exact ⟨b.origin, t, q, .bound hb ht, hq⟩
    cases block with
    | stub name className => cases hi
    | extension name className members =>
      obtain ⟨b, hb, hi⟩ := List.mem_flatMap.mp hi
      exact hof b hb hi
    | function b => exact hof b List.mem_cons_self hi
    | «alias» l a =>
      obtain ⟨hobject, q, hq⟩ := AliasDeclaration.mem_imports_iff.mp hi
      exact ⟨l, a.aliased, q, .aliased hobject, hq⟩
  · rintro ⟨l, t, q, ⟨hb, ht⟩ | hobject, hq⟩
    · exact mem_imports_of_mem_bindings hb (Binding.mem_imports_iff.mpr ⟨t, q, ht, hq⟩)
    · exact AliasDeclaration.mem_imports_iff.mpr ⟨hobject, q, hq⟩

theorem OutputRecord.Represents.mem_imports_iff {ls : List Located} {r : OutputRecord} (h : r.Represents table ls)
    {i : String} : i ∈ r.imports ↔ ∃ block ∈ blocksOf ls, i ∈ block.imports table := by
  have hchunks : r.chunks.flatMap Chunk.imports = (blocksOf ls).flatMap (Block.imports table) := by
    rw [h.chunks, ← flatten_layersOf, List.flatMap_map, List.flatten_eq_flatMap, List.flatMap_assoc]
    rfl
  rw [OutputRecord.imports, sortedTexts, Sorted.mem_ofList fun _ _ => Std.LawfulEqOrd.eq_of_compare, hchunks,
    List.mem_flatMap]

/-! ## Types in the text -/

theorem Scope.holds_params {s : Scope} {ps : List Param} {t : TypeNode} (h : some t ∈ ps.map Param.type) :
    Text.Holds (s.params ps) (s.typeName t) := by
  obtain ⟨p, hp, ht⟩ := List.mem_map.mp h
  refine .listed ", " (List.mem_map_of_mem hp) ?_
  rw [Scope.param, ht]
  exact (((Text.Holds.refl _).append_right _).append_right _).append_right _

/-- A member is written with its types. -/
theorem Scope.holds_member {s : Scope} {m : Member} {t : TypeNode} (h : some t ∈ m.types) :
    Text.Holds (s.member m) (s.typeName t) := by
  have hfront : Text.Holds ("  external " ++ s.typeName t) (s.typeName t) := (Text.Holds.refl _).append_left _
  cases m with
  | method name params returns =>
    rcases List.mem_append.mp h with h | h
    · exact ((holds_params h).append_left _).append_right _
    · obtain rfl := List.mem_singleton.mp h
      exact ((((hfront.append_right " ").append_right name).append_right "(").append_right _).append_right _
  | property name type readonly =>
    obtain rfl := List.mem_singleton.mp h
    exact (((hfront.append_right " get ").append_right name).append_right ";\n").append_right _

theorem Scope.holds_function {s : Scope} {f : FunctionDeclaration} {t : TypeNode} (h : some t ∈ f.types) :
    Text.Holds (s.function f) (s.typeName t) := by
  rcases List.mem_append.mp h with h | h
  · exact ((holds_params h).append_left _).append_right _
  · have hfront : Text.Holds (boundTo (s.qualify f.name) ++ "external " ++ s.typeName t) (s.typeName t) :=
      (Text.Holds.refl _).append_left _
    rw [function, ← List.mem_singleton.mp h]
    exact ((((hfront.append_right " ").append_right f.name).append_right "(").append_right _).append_right _

theorem Binding.holds_text {b : Binding} {t : TypeNode} (h : some t ∈ b.bindable.types) :
    Text.Holds (b.text table) ((OutputRecords.scopeOf table b.origin).typeName t) := by
  obtain ⟨l, bindable⟩ := b
  cases bindable with
  | member m => exact Scope.holds_member h
  | function f => exact Scope.holds_function h

/-- **A block is written with the types that stand in it.** -/
theorem Block.Annotated.holds_text {block : Block} {l : Located} {t : TypeNode} (h : block.Annotated l t) :
    Text.Holds (block.text table) ((OutputRecords.scopeOf table l).typeName t) := by
  cases h with
  | @bound _ b _ hb ht =>
    cases block with
    | stub name className => cases hb
    | extension name className members =>
      have hmembers : (members.map (Binding.text table)).isEmpty = false := by
        rw [List.isEmpty_map, List.isEmpty_eq_false_iff_exists_mem]
        exact ⟨b, hb⟩
      rw [Block.text, extensionBlock, hmembers]
      exact ((Text.Holds.join (List.mem_map_of_mem hb) (Binding.holds_text ht)).append_left _).append_right _
    | function b' =>
      obtain rfl := List.mem_singleton.mp hb
      exact Binding.holds_text ht
    | «alias» l a => cases hb
  | @aliased _ a hobject =>
    have hlooked : a.lookedUp = some a.aliased := by simp [AliasDeclaration.lookedUp, hobject]
    rw [Block.text, AliasDeclaration.emit, hlooked]
    exact ((Text.Holds.refl _).append_left _).append_right _

end

namespace OutputRecords

/-- **The imports of a record are those of the types that it shows.** The declarations that are sent to the path of a
record of a run let it show the types of what they declare first under a signature, and what they declare aliases to be
last, unless that stands for plain objects. These types are the ones in the blocks that the text of the record is made
of, where they are written out, and something is imported exactly when one of them refers to it in another file. -/
theorem route_imports_iff_shown {files : List DeclarationFile} {table : SymbolTable} {layout : OutputLayout}
    {path : String} {r : OutputRecord} (h : (route files table layout).get? path = some r) :
    let ls := sentTo table layout files path
    (∀ i, i ∈ r.imports ↔ ∃ l t q, Shows ls l t ∧ (scopeOf table l).RefersOutside t q ∧ importPath q = i) ∧
    r.code = String.join ((blocksOf ls).map (Block.text table)) ∧
    (∀ l t, Shows ls l t ↔ ∃ block ∈ blocksOf ls, block.Annotated l t) ∧
    (∀ block ∈ blocksOf ls, ∀ l t, block.Annotated l t →
      Text.Holds (block.text table) ((scopeOf table l).typeName t)) := by
  intro ls
  have hr : r.Represents table ls := represents_of_get?_route h
  refine ⟨fun i => ?_, hr.code_eq, fun l t => shows_iff_annotated, fun block _ l t ht => ht.holds_text⟩
  rw [hr.mem_imports_iff]
  constructor
  · rintro ⟨block, hblock, hi⟩
    obtain ⟨l, t, q, ht, hq⟩ := Block.mem_imports_iff.mp hi
    exact ⟨l, t, q, shows_iff_annotated.mpr ⟨block, hblock, ht⟩, hq⟩
  · rintro ⟨l, t, q, hshown, hq⟩
    obtain ⟨block, hblock, ht⟩ := shows_iff_annotated.mp hshown
    exact ⟨block, hblock, Block.mem_imports_iff.mpr ⟨l, t, q, ht, hq⟩⟩

/-- Files of which the last two declare a class and an alias for one record, with a member and a type that do not last.
-/
def sizeFiles : List DeclarationFile :=
  [⟨⟨"in/size.d.ts"⟩, [.namespaceItem "ol" [.declaration (.classDecl ⟨"Size", []⟩),
     .declaration (.interface "Extent")]]⟩,
   ⟨⟨"in/map.d.ts"⟩, [.namespaceItem "ol"
     [.declaration (.classDecl ⟨"Map", [.method "getSize" [] (some (.array (.reference "Size")))]⟩),
      .declaration (.alias ⟨"MAP", .reference "Extent"⟩)]]⟩,
   ⟨⟨"in/plugin.d.ts"⟩, [.namespaceItem "ol"
     [.declaration (.classDecl ⟨"Map", [.method "getSize" [] (some (.reference "Extent"))]⟩),
      .declaration (.alias ⟨"MAP", .reference "Map"⟩)]]⟩]

/-- The member and the type that do not last leave no import behind, and a class of the same file needs none. -/
theorem route_imports_iff_shown_sizeFiles :
    let table := SymbolTable.build sizeFiles {}
    let layout : OutputLayout := ⟨⟨"in"⟩, ⟨"out"⟩⟩
    let ls := sentTo table layout sizeFiles "out/ol/map.dart"
    ∃ r, (route sizeFiles table layout).get? "out/ol/map.dart" = some r ∧ r.imports = ["./ol/size.dart"] ∧
      (∃ l t q, Shows ls l t ∧ (scopeOf table l).RefersOutside t q ∧ importPath q = "./ol/size.dart") ∧
      ¬ ∃ l t q, Shows ls l t ∧ (scopeOf table l).RefersOutside t q ∧ importPath q = "./ol/extent.dart" := by
  intro table layout ls
  have hsent : sentTo table layout sizeFiles "out/ol/map.dart" ≠ [] := by decide
  have hr := get?_route_of_sentTo_ne_nil table layout hsent
  obtain ⟨himports, _⟩ := route_imports_iff_shown hr
  have heq : (OutputRecord.addAll table {} ls).imports = ["./ol/size.dart"] := by decide +kernel
  refine ⟨_, hr, heq, (himports _).mp ?_, fun hextent => ?_⟩
  · rw [heq]
    exact List.mem_cons_self
  · have hmem := (himports _).mpr hextent
    rw [heq, List.mem_singleton] at hmem
    exact absurd hmem (by decide)

end OutputRecords

end InteropBindings
