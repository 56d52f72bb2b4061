import InteropBindings.Declaration.Located

/-!
# Nested declarations

What a file declares at any depth, said without a walk over the file, and the walk that finds exactly that.

- `Item.Declares` goes from a declaration outwards, one namespace at a time;
- the walk lists the declarations of a file with their namespaces and nothing else (`DeclarationFile.mem_located`).
-/

namespace InteropBindings

/-- What an item declares, and the namespaces between the two, from the outside in. -/
inductive Item.Declares : Item → NamespacePath → Declaration → Prop
  | here (decl : Declaration) : Item.Declares (.declaration decl) [] decl
  | inside {name : String} {body : List Item} {item : Item} {inner : NamespacePath} {decl : Declaration} :
      item ∈ body → Item.Declares item inner decl → Item.Declares (.namespaceItem name body) (name :: inner) decl

/-- What a file declares inside some namespaces. -/
def DeclarationFile.Declares (file : DeclarationFile) (around : NamespacePath) (decl : Declaration) : Prop :=
  ∃ item ∈ file.items, item.Declares around decl

/-- The walk reaches every declaration. -/
theorem Item.Declares.mem_located {item : Item} {inner : NamespacePath} {decl : Declaration}
    (h : item.Declares inner decl) (file : Path) (around : NamespacePath) :
    ⟨file, around ++ inner, decl⟩ ∈ item.located file around := by
  induction h generalizing around with
  | here decl => simp [Item.located]
  | @inside name body item inner decl hitem _ ih =>
    rw [Item.located_namespaceItem, List.mem_flatMap]
    refine ⟨item, hitem, ?_⟩
    have := ih (around ++ [name])
    rwa [List.append_assoc] at this

mutual

/-- The walk over an item finds only what the item declares. -/
theorem Item.declares_of_mem_located : ∀ {item : Item} {file : Path} {around : NamespacePath} {l : Located},
    l ∈ item.located file around → l.file = file ∧ ∃ inner, l.around = around ++ inner ∧
      item.Declares inner l.declaration
  | .declaration decl, file, around, l, h => by
    rw [Item.located, List.mem_singleton] at h
    subst h
    exact ⟨rfl, [], by simp, .here decl⟩
  | .namespaceItem name body, file, around, l, h => by
    rw [Item.located] at h
    obtain ⟨hf, item, hitem, inner, ha, hd⟩ := Item.declares_of_mem_locatedAll h
    exact ⟨hf, name :: inner, by simp [ha], .inside hitem hd⟩

/-- The walk over items finds only what one of them declares. -/
theorem Item.declares_of_mem_locatedAll : ∀ {items : List Item} {file : Path} {around : NamespacePath} {l : Located},
    l ∈ Item.locatedAll file around items →
      l.file = file ∧ ∃ item ∈ items, ∃ inner, l.around = around ++ inner ∧ item.Declares inner l.declaration
  | [], _, _, _, h => by cases h
  | item :: items, file, around, l, h => by
    rw [Item.locatedAll, List.mem_append] at h
    rcases h with h | h
    · obtain ⟨hf, inner, ha, hd⟩ := Item.declares_of_mem_located h
      exact ⟨hf, item, List.mem_cons_self, inner, ha, hd⟩
    · obtain ⟨hf, item', hitem, inner, ha, hd⟩ := Item.declares_of_mem_locatedAll h
      exact ⟨hf, item', List.mem_cons_of_mem _ hitem, inner, ha, hd⟩

end

/-- **The walk lists what a file declares.** -/
theorem DeclarationFile.mem_located {file : DeclarationFile} {l : Located} :
    l ∈ file.located ↔ l.file = file.path ∧ file.Declares l.around l.declaration := by
  constructor
  · intro h
    obtain ⟨hf, item, hitem, inner, ha, hd⟩ := Item.declares_of_mem_locatedAll h
    rw [List.nil_append] at ha
    exact ⟨hf, item, hitem, ha ▸ hd⟩
  · obtain ⟨f, around, decl⟩ := l
    rintro ⟨rfl, item, hitem, hd⟩
    rw [DeclarationFile.located, Item.locatedAll_eq_flatMap, List.mem_flatMap]
    exact ⟨item, hitem, hd.mem_located file.path []⟩

end InteropBindings
