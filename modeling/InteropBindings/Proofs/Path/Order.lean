import InteropBindings.Path
import InteropBindings.Proofs.Text.RawText

/-!
# The order of paths

Paths are in a total preorder, and two paths are equal in it exactly when they are the same path, that is when they have
the same components (`Path.order_eq_iff`).
-/

namespace InteropBindings.Path

/-- The name of a component, or nothing. -/
def nameText : Component → RawText
  | .normal name => name
  | _ => ""

/-- Components are compared by kind and then by name. -/
theorem compareComponents_eq :
    compareComponents = compareLex (compareOn rank) (compareOn nameText) := by
  funext a b
  cases a <;> cases b <;> rfl

instance : Std.TransCmp compareComponents := compareComponents_eq ▸ inferInstance

/-- Components that compare equal are equal. -/
instance : Std.LawfulEqCmp compareComponents where
  eq_of_compare {a b} h := by
    cases a <;> cases b <;> first | rfl | simp_all [compareComponents, rank]

/-- The order of component lists is lexicographic. -/
theorem compareLists_eq : compareLists = List.compareLex compareComponents := by
  funext as bs
  induction as generalizing bs with
  | nil => cases bs <;> rfl
  | cons a as ih =>
    cases bs with
    | nil => rfl
    | cons b bs => rw [compareLists, List.compareLex_cons_cons, ih]

/-- Paths are ordered by their components. -/
theorem order_eq (p q : Path) : p.order q = List.compareLex compareComponents p.components q.components := by
  rw [order, compareLists_eq]

instance : Std.TransCmp order where
  eq_swap {p q} := by
    rw [order_eq, order_eq]
    exact Std.OrientedCmp.eq_swap
  isLE_trans {p q r} hpq hqr := by
    rw [order_eq] at hpq hqr ⊢
    exact Std.TransCmp.isLE_trans hpq hqr

/-- **Paths that compare equal** are the same path. -/
theorem order_eq_iff {p q : Path} : p.order q = .eq ↔ p.same q = true := by
  rw [order_eq, same, beq_iff_eq]
  constructor
  · exact Std.LawfulEqCmp.eq_of_compare
  · intro h
    rw [h]
    exact Std.ReflCmp.compare_self

/-- A path comes before those that go on from it. -/
theorem order_of_append {p q : Path} {c : Component} {rest : List Component}
    (h : q.components = p.components ++ c :: rest) :
    p.order q = .lt := by
  rw [order, h]
  induction p.components with
  | nil => rfl
  | cons d ds ih =>
    have hd : compareComponents d d = .eq := Std.ReflCmp.compare_self
    rw [List.cons_append, compareLists, hd]
    exact ih

end InteropBindings.Path
