import InteropBindings.Declaration.Lowering
import InteropBindings.Proofs.Text.Segments
import InteropBindings.Symbol.Name

/-!
# Dotted names

A qualified name is a text with points between its parts. Parts without points are recovered from it, so that the names
of different symbols differ.

- the last part is found again whatever the namespaces are called (`QualifiedName.symbolName_within`);
- all parts are found again when none holds a point (`QualifiedName.parts_within`, `QualifiedName.within_inj`);
- a dotted reference inside namespaces has the name of a symbol further inside (`Source.EntityName.within_text`).
-/

namespace InteropBindings

open Text

/-- A part of a dotted name that holds no point itself. -/
abbrev Text.PointFree (s : String) : Prop := '.' ∉ s.toList

/-! ## Qualified names -/

namespace QualifiedName

/-- The parts of a qualified name: those of the namespaces, which may hold points, and those of the name. -/
theorem parts_within_of_ne_nil {around : NamespacePath} (h : around ≠ []) (name : String) :
    (within around name).parts = segments '.' (joined '.' around) ++ segments '.' name := by
  rw [within, if_neg (by simpa using h), parts]
  exact segments_append '.' _ _

/-- The name of a symbol is recovered from its qualified name. -/
theorem symbolName_within (around : NamespacePath) {name : String} (h : PointFree name) :
    (within around name).symbolName = name := by
  rw [symbolName]
  by_cases ha : around = []
  · rw [ha, within_nil, parts, segments_of_not_mem h]
    rfl
  · rw [parts_within_of_ne_nil ha, segments_of_not_mem h]
    simp

theorem parts_within {around : NamespacePath} {name : String} (ha : ∀ s ∈ around, PointFree s)
    (hn : PointFree name) : (within around name).parts = around ++ [name] := by
  by_cases h : around = []
  · rw [h, within_nil, parts, segments_of_not_mem hn]
    rfl
  · rw [parts_within_of_ne_nil h, segments_joined h ha, segments_of_not_mem hn]

theorem within_inj {around around' : NamespacePath} {name name' : String} (ha : ∀ s ∈ around, PointFree s)
    (hn : PointFree name) (ha' : ∀ s ∈ around', PointFree s) (hn' : PointFree name')
    (h : within around name = within around' name') : around = around' ∧ name = name' := by
  have hp := congrArg parts h
  rw [parts_within ha hn, parts_within ha' hn'] at hp
  obtain ⟨h₁, h₂⟩ := List.append_inj' hp rfl
  exact ⟨h₁, List.singleton_inj.mp h₂⟩

theorem within_eq_joined (around : NamespacePath) (name : String) :
    within around name = ⟨joined '.' (around ++ [name])⟩ := by
  rw [within]
  split
  · next h => simp [List.isEmpty_iff.mp h, joined, joinWith]
  · next h => rw [joined_append_singleton '.' (by simpa using h)]

/-- A name behind a point stands for a symbol one namespace further inside. -/
theorem within_append (around : NamespacePath) (name last : String) :
    within around (name ++ "." ++ last) = ⟨(within around name).text ++ "." ++ last⟩ := by
  rw [within, within]
  split
  · rfl
  · simp [String.append_assoc]

end QualifiedName

/-! ## References -/

namespace Source.EntityName

/-- The last part of a dotted name. -/
def final : EntityName → String
  | .name part => part
  | .member _ part => part

/-- The parts of a dotted name before the last one. -/
def qualifiers : EntityName → List String
  | .name _ => []
  | .member qualifier _ => qualifiers qualifier ++ [final qualifier]

/-- A reference inside namespaces has the qualified name of a symbol in the namespaces that it goes through. -/
theorem within_text (around : NamespacePath) (entity : EntityName) :
    QualifiedName.within around entity.text = .within (around ++ entity.qualifiers) entity.final := by
  induction entity with
  | name part => rw [qualifiers, List.append_nil]; rfl
  | member qualifier part ih =>
    have hne : around ++ qualifier.qualifiers ++ [qualifier.final] ≠ [] := by simp
    rw [text, QualifiedName.within_append, ih, QualifiedName.within_eq_joined, QualifiedName.within_eq_joined,
      qualifiers, final, ← List.append_assoc, joined_append_singleton '.' hne]

end Source.EntityName

end InteropBindings
