import InteropBindings.Proofs.Disk.Trees

/-!
# Trees in another order

The order of the entries of a tree is the order in which its directories list them. Trees with the same entries in any
two orders (`Disk.Reorders`) have the same at each place (`Disk.Reorders.entryAt_eq`), and lead every path to the same
(`Disk.Reorders.resolve_eq`).
-/

namespace InteropBindings.Disk

variable {d d' : Disk}

/-- The same tree, with its entries in another order. -/
structure Reorders (d d' : Disk) : Prop where
  entries : d'.entries.entries.Perm d.entries.entries
  workingDirectory : d'.workingDirectory = d.workingDirectory

/-! ## The same at each place -/

section

variable (h : ∀ place, d'.entryAt place = d.entryAt place) (last : Bool)

include h

theorem follow_congr (onLink : Place → List RawText → Except Refusal Target) (here : Place) (rest : List RawText) :
    d'.follow last onLink here rest = d.follow last onLink here rest := by
  induction rest generalizing here with
  | nil => rfl
  | cons piece rest ih => simp only [follow, h, ih]

/-- The same holds over links. -/
theorem followLinks_congr (links : Nat) (here : Place) (rest : List RawText) :
    d'.followLinks last links here rest = d.followLinks last links here rest := by
  induction links generalizing here rest with
  | zero => rfl
  | succ links ih =>
    have hlinks : d'.followLinks last links = d.followLinks last links := funext₂ ih
    rw [followLinks, followLinks, hlinks, follow_congr h]

end

namespace Reorders

variable (h : d.Reorders d') (hnodup : d.entries.keys.Nodup)

include h

theorem perm_keys : d'.entries.keys.Perm d.entries.keys := h.entries.map Prod.fst

include hnodup

/-- **The same stands at each place.** -/
theorem entryAt_eq (place : Place) : d'.entryAt place = d.entryAt place := by
  have hnodup' : d'.entries.keys.Nodup := h.perm_keys.nodup_iff.mpr hnodup
  rw [entryAt, entryAt]
  split
  · rfl
  · refine Option.ext fun e => ?_
    rw [← Ledger.mem_entries_iff hnodup', ← Ledger.mem_entries_iff hnodup, h.entries.mem_iff]

/-- **Every path** leads to the same. -/
theorem resolve_eq (last : Bool) (p : Path) : d'.resolve last p = d.resolve last p := by
  unfold resolve
  rw [h.workingDirectory, followLinks_congr (h.entryAt_eq hnodup)]

omit hnodup in
/-- A plain tree stays one in another order. -/
theorem isPlain (hplain : d.IsPlain) : d'.IsPlain where
  nodup := h.perm_keys.nodup_iff.mpr hplain.nodup
  named place hplace := hplain.named place (h.perm_keys.mem_iff.mp hplace)
  inside place hplace := by
    rw [h.entryAt_eq hplain.nodup]
    exact hplain.inside place (h.perm_keys.mem_iff.mp hplace)
  start := by
    rw [h.entryAt_eq hplain.nodup, h.workingDirectory]
    exact hplain.start
  linkFree place target := by
    rw [h.entryAt_eq hplain.nodup]
    exact hplain.linkFree place target

end Reorders

end InteropBindings.Disk
