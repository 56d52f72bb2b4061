import InteropBindings.Output.Routing
import InteropBindings.TypeScript
import Mathlib.Data.List.Forall2

/-!
# Dotted and nested namespaces

A namespace `a.b.c` and three namespaces inside each other are different syntax trees, and so are namespaces with and
without `export`. The mark `declare` is no part of a tree.

- Every tree can be spelled out: with one block for each name, and without exports (`Source.Item.allSpelledOut`).
- That changes nothing of what the tree declares (`Item.ofItems_allSpelledOut`), so texts that are spelled out alike are
  read as the same file (`DeclarationFile.read_eq_of_spelledAlike`) and have the same symbols and records.
- A dotted name and its blocks are spelled out alike (`Source.Declaration.spelledOut_dotted_eq_nested`), with any
  mixture of both inside, and declare what the body declares below all of the names (`Item.dotted_means_nested`).
-/

namespace InteropBindings

namespace Source

/-! ## Two ways to write a namespace -/

/-- A declaration as an item, exported or not. -/
def Item.holding (isExported : Bool) (decl : Declaration) : Item :=
  if isExported then .exported decl else .statement decl

/-- A namespace inside another one. -/
structure Level where
  name : String
  isExported : Bool := false
deriving DecidableEq, Repr

/-- A namespace with a dotted name, as it is read. -/
def Declaration.dotted (first : String) (names : List String) (items : List Item) : Declaration :=
  .namespaceDecl first false (some (names.foldr .dotted (.block items)))

/-- Blocks inside each other, from the outside in. -/
def Item.blocks (levels : List Level) (items : List Item) : List Item :=
  levels.foldr (fun level inner =>
    [.holding level.isExported (.namespaceDecl level.name false (some (.block inner)))]) items

/-- A namespace with further ones inside each other. -/
def Declaration.nested (first : String) (levels : List Level) (items : List Item) : Declaration :=
  .namespaceDecl first false (some (.block (Item.blocks levels items)))

/-! ## Spelling out -/

mutual

/-- A declaration with its namespaces spelled out. -/
def Declaration.spelledOut : Declaration → Declaration
  | .namespaceDecl name isGlobal (some body) => .namespaceDecl name isGlobal (some (.block body.spelledOut))
  | .namespaceDecl name isGlobal none => .namespaceDecl name isGlobal none
  | .classDecl name body => .classDecl name body
  | .function name callable => .function name callable
  | .interface name => .interface name
  | .typeAlias name aliased => .typeAlias name aliased
  | .other => .other

/-- The items of a body. The rest of a dotted name is a block of its own. -/
def NamespaceBody.spelledOut : NamespaceBody → List Item
  | .block items => Item.allSpelledOut items
  | .dotted name body => [.statement (.namespaceDecl name false (some (.block body.spelledOut)))]

/-- An item with its namespaces spelled out, and without its export. -/
def Item.spelledOut : Item → Item
  | .statement decl => .statement decl.spelledOut
  | .exported decl => .statement decl.spelledOut
  | .exportedDefault decl => .exportedDefault decl
  | .other => .other

/-- Items with their namespaces spelled out. -/
def Item.allSpelledOut : List Item → List Item
  | [] => []
  | item :: items => item.spelledOut :: Item.allSpelledOut items

end

/-- Items that differ at most in how their namespaces are written. -/
def Item.SpelledAlike (items items' : List Item) : Prop := allSpelledOut items = allSpelledOut items'

theorem Item.allSpelledOut_eq_map (items : List Item) : allSpelledOut items = items.map spelledOut := by
  induction items with
  | nil => rw [allSpelledOut, List.map_nil]
  | cons item items ih => rw [allSpelledOut, ih, List.map_cons]

theorem Item.spelledOut_holding (isExported : Bool) (decl : Declaration) :
    (holding isExported decl).spelledOut = .statement decl.spelledOut := by
  cases isExported <;> simp [holding, spelledOut]

/-- The rest of a dotted name is spelled out as blocks inside each other. -/
theorem NamespaceBody.spelledOut_foldr (names : List String) (items : List Item) :
    (names.foldr NamespaceBody.dotted (.block items)).spelledOut =
      Item.blocks (names.map (Level.mk · false)) (Item.allSpelledOut items) := by
  induction names with
  | nil => rw [List.foldr_nil, spelledOut]; rfl
  | cons name names ih => rw [List.foldr_cons, spelledOut, ih]; rfl

theorem Item.allSpelledOut_blocks (levels : List Level) (items : List Item) :
    allSpelledOut (blocks levels items) = blocks ((levels.map (·.name)).map (Level.mk · false))
      (allSpelledOut items) := by
  induction levels with
  | nil => rfl
  | cons level levels ih =>
    have hcons : blocks (level :: levels) items =
        [holding level.isExported (.namespaceDecl level.name false (some (.block (blocks levels items))))] := rfl
    rw [hcons, allSpelledOut, allSpelledOut, spelledOut_holding, Declaration.spelledOut, NamespaceBody.spelledOut, ih]
    rfl

/-- **A dotted name and its blocks** are spelled out alike. -/
theorem Declaration.spelledOut_dotted_eq_nested (first : String) (levels : List Level) {items items' : List Item}
    (h : Item.SpelledAlike items items') :
    (dotted first (levels.map (·.name)) items).spelledOut = (nested first levels items').spelledOut := by
  rw [dotted, nested, spelledOut, spelledOut, NamespaceBody.spelledOut_foldr, NamespaceBody.spelledOut,
    Item.allSpelledOut_blocks, h]

end Source

open Source.Item (SpelledAlike holding)

/-! ## What is declared -/

namespace Item

mutual

/-- Spelling out changes nothing of what a declaration declares. -/
theorem ofDeclaration?_spelledOut : ∀ decl : Source.Declaration, ofDeclaration? decl.spelledOut = ofDeclaration? decl
  | .namespaceDecl name isGlobal (some body) => by
    rw [Source.Declaration.spelledOut, ofDeclaration?, ofDeclaration?, ofBody_block, ofItems_spelledOut body]
  | .namespaceDecl _ _ none => by rw [Source.Declaration.spelledOut]
  | .classDecl _ _ => by rw [Source.Declaration.spelledOut]
  | .function _ _ => by rw [Source.Declaration.spelledOut]
  | .interface _ => by rw [Source.Declaration.spelledOut]
  | .typeAlias _ _ => by rw [Source.Declaration.spelledOut]
  | .other => by rw [Source.Declaration.spelledOut]

theorem ofItems_spelledOut : ∀ body : Source.NamespaceBody, ofItems body.spelledOut = ofBody body
  | .block items => by rw [Source.NamespaceBody.spelledOut, ofBody_block, ofItems_allSpelledOut items]
  | .dotted name body => by
    rw [Source.NamespaceBody.spelledOut, ofBody_dotted, ← ofItems_spelledOut body, ofItems, ofItems, ofItem?,
      ofDeclaration?, ofBody_block]
    rfl

theorem ofItem?_spelledOut : ∀ item : Source.Item, ofItem? item.spelledOut = ofItem? item
  | .statement decl => by rw [Source.Item.spelledOut, ofItem?, ofItem?, ofDeclaration?_spelledOut decl]
  | .exported decl => by rw [Source.Item.spelledOut, ofItem?, ofItem?, ofDeclaration?_spelledOut decl]
  | .exportedDefault _ => by rw [Source.Item.spelledOut]
  | .other => by rw [Source.Item.spelledOut]

/-- **Spelling out changes nothing** of what items declare. -/
theorem ofItems_allSpelledOut : ∀ items : List Source.Item, ofItems (Source.Item.allSpelledOut items) = ofItems items
  | [] => by rw [Source.Item.allSpelledOut]
  | item :: items => by
    rw [Source.Item.allSpelledOut, ofItems, ofItems, ofItem?_spelledOut item, ofItems_allSpelledOut items]

end

theorem ofItems_eq_of_spelledAlike {items items' : List Source.Item} (h : SpelledAlike items items') :
    ofItems items = ofItems items' := by
  rw [← ofItems_allSpelledOut items, h, ofItems_allSpelledOut]

/-- Namespaces inside each other. -/
def nested (names : List String) (body : List Item) : List Item :=
  names.foldr (fun name inner => [.namespaceItem name inner]) body

theorem ofBody_foldr (names : List String) (items : List Source.Item) :
    ofBody (names.foldr .dotted (.block items)) = nested names (ofItems items) := by
  induction names with
  | nil => rw [List.foldr_nil, ofBody_block]; rfl
  | cons name names ih => rw [List.foldr_cons, ofBody_dotted, ih]; rfl

theorem ofDeclaration?_dotted (first : String) (names : List String) (items : List Source.Item) :
    ofDeclaration? (.dotted first names items) = some (.namespaceItem first (nested names (ofItems items))) := by
  rw [Source.Declaration.dotted, ofDeclaration?, ofBody_foldr, if_neg Bool.false_ne_true]

/-- What namespaces inside each other hold lies below all of their names, in order. -/
theorem locatedAll_nested (path : Path) (around : NamespacePath) (names : List String) (body : List Item) :
    locatedAll path around (nested names body) = locatedAll path (around ++ names) body := by
  induction names generalizing around with
  | nil => rw [List.append_nil]; rfl
  | cons name names ih =>
    have hcons : nested (name :: names) body = [.namespaceItem name (nested names body)] := rfl
    rw [hcons, locatedAll_eq_flatMap, List.flatMap_singleton, located, ih, List.append_assoc, List.singleton_append]

end Item

/-! ## Files -/

/-- What a file with a given tree declares. -/
def DeclarationFile.ofTree (path : Path) (items : List Source.Item) : DeclarationFile := ⟨path, Item.ofItems items⟩

theorem DeclarationFile.read_eq (parser : Parser) (path : Path) (text : String) :
    DeclarationFile.read parser path text = (parser path text).map (ofTree path) := by
  rw [DeclarationFile.read]
  cases parser path text <;> rfl

/-- **Texts whose trees are spelled out alike** are read as the same declarations. -/
theorem DeclarationFile.read_eq_of_spelledAlike {parser : Parser} {path : Path} {text text' : String}
    {items items' : List Source.Item} (h : parser path text = .ok items) (h' : parser path text' = .ok items')
    (halike : SpelledAlike items items') :
    DeclarationFile.read parser path text = DeclarationFile.read parser path text' := by
  rw [read_eq, read_eq, h, h', Except.map, Except.map, ofTree, ofTree, Item.ofItems_eq_of_spelledAlike halike]

/-- Files at the same paths whose trees are spelled out alike. -/
def FilesAlike : List (Path × List Source.Item) → List (Path × List Source.Item) → Prop :=
  List.Forall₂ fun f f' => f.1 = f'.1 ∧ SpelledAlike f.2 f'.2

theorem FilesAlike.map_ofTree {files files' : List (Path × List Source.Item)} (h : FilesAlike files files') :
    (files.map fun f => DeclarationFile.ofTree f.1 f.2) = files'.map fun f => DeclarationFile.ofTree f.1 f.2 := by
  induction h with
  | nil => rfl
  | cons hfile _ ih =>
    rw [List.map_cons, List.map_cons, ih, DeclarationFile.ofTree, DeclarationFile.ofTree, hfile.1,
      Item.ofItems_eq_of_spelledAlike hfile.2]

/-- **Dotted namespaces mean nested ones.** A namespace with a dotted name and one block for each of its names, exported
or not on any level, declare the same: all that the body declares, below all of the names in order. Where the one is
written in a file, the other can be, with an export or without, and with any mixture of the two forms inside and around
it: the trees stay spelled out alike. And from files with such trees the same symbol table and the same records are
made. -/
theorem Item.dotted_means_nested (first : String) (levels : List Source.Level) (items : List Source.Item) :
    (∃ tree, ofDeclaration? (.dotted first (levels.map (·.name)) items) = some tree ∧
      ofDeclaration? (.nested first levels items) = some tree ∧
      ∀ path around, tree.located path around = locatedAll path (around ++ first :: levels.map (·.name))
        (ofItems items)) ∧
    (∀ items' before before' after after' isExported isExported',
      SpelledAlike items items' → SpelledAlike before before' → SpelledAlike after after' →
        SpelledAlike (before ++ holding isExported (.dotted first (levels.map (·.name)) items) :: after)
          (before' ++ holding isExported' (.nested first levels items') :: after')) ∧
    ∀ files files', FilesAlike files files' →
      let declared := files.map fun f => DeclarationFile.ofTree f.1 f.2
      let declared' := files'.map fun f => DeclarationFile.ofTree f.1 f.2
      (∀ platform, SymbolTable.build declared platform = SymbolTable.build declared' platform) ∧
        ∀ table layout, OutputRecords.route declared table layout = OutputRecords.route declared' table layout := by
  refine ⟨⟨.namespaceItem first (Item.nested (levels.map (·.name)) (ofItems items)), ?_, ?_, ?_⟩, ?_, ?_⟩
  · exact ofDeclaration?_dotted first _ items
  · rw [← ofDeclaration?_spelledOut, ← Source.Declaration.spelledOut_dotted_eq_nested first levels rfl,
      ofDeclaration?_spelledOut, ofDeclaration?_dotted]
  · intro path around
    rw [located, locatedAll_nested, List.append_assoc, List.singleton_append]
  · intro items' before before' after after' isExported isExported' hitems hbefore hafter
    have hdecl := Source.Declaration.spelledOut_dotted_eq_nested first levels hitems
    simp only [SpelledAlike, Source.Item.allSpelledOut_eq_map, List.map_append, List.map_cons,
      Source.Item.spelledOut_holding] at hbefore hafter ⊢
    rw [hbefore, hafter, hdecl]
  · intro files files' h
    dsimp only
    rw [h.map_ofTree]
    exact ⟨fun _ => rfl, fun _ _ => rfl⟩

/-- A body with a dotted name. -/
def dottedBody : List Source.Item := [holding false (.dotted "c" ["d"] [holding false (.classDecl "E" [])])]

/-- The same body with blocks and exports. -/
def nestedBody : List Source.Item := [holding false (.nested "c" [⟨"d", true⟩] [holding true (.classDecl "E" [])])]

/-- A text of a file. -/
def dottedText : String := "declare namespace a.b { namespace c.d { class E { } } }"

/-- Its tree. -/
def dottedTree : List Source.Item := [holding false (.dotted "a" ["b"] dottedBody)]

/-- A text of the same file with blocks and other marks. -/
def nestedText : String :=
  "namespace a { export declare namespace b { namespace c { export namespace d { export class E { } } } } }"

/-- Its tree. -/
def nestedTree : List Source.Item := [holding false (.nested "a" [⟨"b", true⟩] nestedBody)]

set_option maxRecDepth 4000 in
/-- Both texts are read as the same declarations. -/
theorem Item.dotted_means_nested_texts :
    Source.readItems true true dottedText = .ok dottedTree ∧ Source.readItems true true nestedText = .ok nestedTree ∧
      SpelledAlike dottedTree nestedTree ∧
      DeclarationFile.read typeScript ⟨"in/x.d.ts"⟩ dottedText =
        DeclarationFile.read typeScript ⟨"in/x.d.ts"⟩ nestedText ∧
      (∀ platform, SymbolTable.build [.ofTree ⟨"in/x.d.ts"⟩ dottedTree] platform =
        SymbolTable.build [.ofTree ⟨"in/x.d.ts"⟩ nestedTree] platform) ∧
      (SymbolTable.build [.ofTree ⟨"in/x.d.ts"⟩ nestedTree] {}).files.keys = [⟨"a.b.c.d.E"⟩] := by
  obtain ⟨-, halike, hfiles⟩ := Item.dotted_means_nested "a" [⟨"b", true⟩] dottedBody
  have hbody : SpelledAlike dottedBody nestedBody := by rfl
  have htrees : SpelledAlike dottedTree nestedTree := halike nestedBody [] [] [] [] false false hbody rfl rfl
  have hsame := hfiles [(⟨"in/x.d.ts"⟩, dottedTree)] [(⟨"in/x.d.ts"⟩, nestedTree)] (.cons ⟨rfl, htrees⟩ .nil)
  have hkind : SourceKind.ofPath ⟨"in/x.d.ts"⟩ = .declarations := by decide +kernel
  have hdotted : Source.readItems true true dottedText = .ok dottedTree := by rfl
  have hnested : Source.readItems true true nestedText = .ok nestedTree := by rfl
  have hread := DeclarationFile.read_eq_of_spelledAlike ((typeScript_of_declarations hkind _).trans hdotted)
    ((typeScript_of_declarations hkind _).trans hnested) htrees
  exact ⟨hdotted, hnested, htrees, hread, hsame.1, by decide +kernel⟩

end InteropBindings
