import InteropBindings.Declaration.Tree

/-!
# Declarations in place

The declarations of a file in the order in which they are written, each with the namespaces around it.
-/

namespace InteropBindings

/-- The names of the namespaces around a declaration, from the outside in. -/
abbrev NamespacePath := List String

/-- A declaration with the file and the namespaces that hold it. -/
structure Located where
  file : Path
  around : NamespacePath
  declaration : Declaration
deriving DecidableEq, Repr

mutual

/-- The declarations of an item inside some namespaces. -/
def Item.located (file : Path) (around : NamespacePath) : Item → List Located
  | .declaration decl => [⟨file, around, decl⟩]
  | .namespaceItem name body => locatedAll file (around ++ [name]) body

/-- The declarations of items inside some namespaces. -/
def Item.locatedAll (file : Path) (around : NamespacePath) : List Item → List Located
  | [] => []
  | item :: items => item.located file around ++ locatedAll file around items

end

/-- The declarations of a file. -/
def DeclarationFile.located (file : DeclarationFile) : List Located := Item.locatedAll file.path [] file.items

theorem Item.locatedAll_eq_flatMap (file : Path) (around : NamespacePath) (items : List Item) :
    Item.locatedAll file around items = items.flatMap (Item.located file around) := by
  induction items with
  | nil => rw [Item.locatedAll]; rfl
  | cons item items ih => rw [Item.locatedAll, ih]; rfl

theorem Item.located_namespaceItem (file : Path) (around : NamespacePath) (name : String) (body : List Item) :
    Item.located file around (.namespaceItem name body) = body.flatMap (Item.located file (around ++ [name])) := by
  rw [Item.located, Item.locatedAll_eq_flatMap]

theorem Item.locatedAll_append (file : Path) (around : NamespacePath) (xs ys : List Item) :
    Item.locatedAll file around (xs ++ ys) = Item.locatedAll file around xs ++ Item.locatedAll file around ys := by
  simp [Item.locatedAll_eq_flatMap]

end InteropBindings
