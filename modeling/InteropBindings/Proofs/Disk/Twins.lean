import InteropBindings.Proofs.Disk.Trees

/-!
# Trees that differ below a place

Two trees may differ below one place and agree everywhere else (`Disk.Twins`). A path whose way does not go below the
place leads to the same in both (`Disk.Twins.resolve_eq`), so what is changed under such a path is changed in both alike
(`Disk.Twins.makeDirectory`, `Disk.Twins.write`).
-/

namespace InteropBindings

open InteropBindings.Path

/-- Whether a place lies below another one. -/
def Place.IsBelow (place q : Place) : Prop := place <+: q ∧ q ≠ place

/-- Whether the way of a path, followed from a place on, never comes to a place below another one. -/
def Path.IsClear (place here : Place) (p : Path) : Prop :=
  ∀ front, front <+: p.components → ¬ place.IsBelow (front.foldl Place.descend here)

namespace Path.IsClear

variable {place here : Place} {p q : Path}

theorem of_prefix (h : p.IsClear place here) (hq : q.components <+: p.components) : q.IsClear place here :=
  fun front hfront => h front (hfront.trans hq)

theorem withoutEndSlashes (h : p.IsClear place here) : (Disk.withoutEndSlashes p).IsClear place here :=
  h.of_prefix (Disk.components_withoutEndSlashes p ▸ List.prefix_rfl)

theorem placeOf {d : Disk} (h : p.IsClear place d.workingDirectory) : ¬ place.IsBelow (d.placeOf p) :=
  h p.components List.prefix_rfl

end Path.IsClear

namespace Disk

variable {place : Place} {d₀ t₀ d t : Disk} {p : Path}

/-- Plain trees that agree except below a place, where each is like one of two others. -/
structure Twins (place : Place) (d₀ t₀ d t : Disk) : Prop where
  plain : d.IsPlain
  plain' : t.IsPlain
  workingDirectory : d.workingDirectory = d₀.workingDirectory
  workingDirectory' : t.workingDirectory = d₀.workingDirectory
  outside : ∀ q, ¬ place.IsBelow q → t.entryAt q = d.entryAt q
  inside : ∀ q, place.IsBelow q → d.entryAt q = d₀.entryAt q ∧ t.entryAt q = t₀.entryAt q

namespace Twins

/-! ## Questions -/

/-- Pieces whose way does not go below the place lead to the same. -/
theorem follow_eq (h : Twins place d₀ t₀ d t) {last : Bool}
    {onLink onLink' : Place → List RawText → Except Refusal Target} {here : Place} {rest : List RawText}
    (hclear : ∀ front, front <+: rest.filterMap stepOf? → ¬ place.IsBelow (front.foldl Place.descend here)) :
    t.follow last onLink' here rest = d.follow last onLink here rest := by
  induction rest generalizing here with
  | nil => rfl
  | cons piece rest ih =>
    rw [List.filterMap_cons, stepOf?_eq] at hclear
    simp only [follow]
    split
    · next hstays =>
      rw [if_pos hstays] at hclear
      exact ih hclear
    next hstays =>
    rw [if_neg hstays] at hclear
    split
    · next hup =>
      rw [if_pos (by simpa using hup)] at hclear
      exact ih fun front hfront => hclear (.parent :: front) (List.cons_prefix_cons.mpr ⟨rfl, hfront⟩)
    next hup =>
    rw [if_neg (by simpa using hup)] at hclear
    split
    · rfl
    have hentry : t.entryAt (here ++ [piece]) = d.entryAt (here ++ [piece]) :=
      h.outside _ (hclear [.normal piece] (List.cons_prefix_cons.mpr ⟨rfl, List.nil_prefix⟩))
    have hnext := ih fun front hfront => hclear (.normal piece :: front) (List.cons_prefix_cons.mpr ⟨rfl, hfront⟩)
    rw [hentry]
    cases hd : d.entryAt (here ++ [piece]) with
    | none => rfl
    | some e =>
      cases e with
      | directory => exact hnext
      | file c => rfl
      | link target => exact absurd hd (h.plain.linkFree _ target)

/-- **A clear path** leads to the same. -/
theorem resolve_eq (h : Twins place d₀ t₀ d t) (hclear : p.IsClear place d₀.workingDirectory) (last : Bool) :
    t.resolve last p = d.resolve last p := by
  unfold resolve
  rw [h.workingDirectory, h.workingDirectory', followLinks, followLinks, h.follow_eq]
  intro front hfront
  rw [filterMap_pieces] at hfront
  have hstart := hclear (p.split.1.components ++ front) (by
    rw [components_eq]
    exact (List.prefix_append_right_inj _).mpr hfront)
  rwa [List.foldl_append, foldl_anchor] at hstart

theorem status_eq (h : Twins place d₀ t₀ d t) (hclear : p.IsClear place d₀.workingDirectory) :
    t.status p = d.status p := by
  rw [status, find, h.resolve_eq hclear, status, find]

/-- The same entries stand in a directory that is neither the place nor below it, in any order. -/
theorem kinds_perm (h : Twins place d₀ t₀ d t) {q : Place} (hq : ¬ place <+: q) : (t.kinds q).Perm (d.kinds q) := by
  have hnodup : ∀ {d : Disk}, d.IsPlain → (d.kinds q).Nodup := fun hplain =>
    (pairwise_kinds hplain.nodup q).imp fun hne he => hne (congrArg Prod.fst he)
  rw [List.perm_ext_iff_of_nodup (hnodup h.plain') (hnodup h.plain)]
  rintro ⟨name, kind⟩
  have hname : ¬ place.IsBelow (q ++ [name]) := by
    rintro ⟨hunder, hne⟩
    rcases List.prefix_concat_iff.mp hunder with heq | hbefore
    · exact hne heq.symm
    · exact hq hbefore
  rw [mem_kinds_iff h.plain'.nodup, mem_kinds_iff h.plain.nodup, h.outside _ hname]

/-- Listing a directory that is neither the place nor below it is refused in both, or gives the same entries in any
order. -/
theorem list_cases (h : Twins place d₀ t₀ d t) (hclear : p.IsClear place d₀.workingDirectory)
    (hp : ¬ place <+: d₀.placeOf p) :
    (∃ reason, d.list p = .error reason ∧ t.list p = .error reason) ∨
      ∃ entries entries', d.list p = .ok entries ∧ t.list p = .ok entries' ∧ entries'.Perm entries := by
  cases hlist : d.list p with
  | ok entries =>
    obtain ⟨q, hresolve, rfl⟩ := list_eq_ok_iff.mp hlist
    have hq : q = d₀.placeOf p := by
      rw [h.plain.linkFree.eq_placeOf hresolve, placeOf, h.workingDirectory, placeOf]
    have hlist' : t.list p = .ok (t.kinds q) := list_eq_ok_iff.mpr ⟨q, (h.resolve_eq hclear true).trans hresolve, rfl⟩
    exact .inr ⟨_, _, rfl, hlist', h.kinds_perm (hq ▸ hp)⟩
  | error reason =>
    refine .inl ⟨reason, rfl, ?_⟩
    have hfind : t.find p = d.find p := by rw [find, h.resolve_eq hclear, find]
    unfold list at hlist ⊢
    rw [hfind]
    cases hd : d.find p with
    | error reason' =>
      rw [hd] at hlist
      cases hlist
      rfl
    | ok found =>
      obtain ⟨q, e⟩ := found
      rw [hd] at hlist
      cases e <;> cases hlist <;> rfl

end Twins

/-! ## Changes -/

namespace Twins

theorem put (h : Twins place d₀ t₀ d t) {q : Place} {e : Entry} (hroot : q ≠ []) (hq : ¬ place.IsBelow q)
    (hplain : (d.put q e).IsPlain) (hplain' : (t.put q e).IsPlain) : Twins place d₀ t₀ (d.put q e) (t.put q e) := by
  refine ⟨hplain, hplain', h.workingDirectory, h.workingDirectory', fun q' hq' => ?_, fun q' hq' => ?_⟩
  · rw [entryAt_put d q q' e hroot, entryAt_put t q q' e hroot, h.outside q' hq']
  · have hne : q ≠ q' := by
      rintro rfl
      exact hq hq'
    rw [entryAt_put d q q' e hroot, entryAt_put t q q' e hroot, if_neg hne, if_neg hne]
    exact h.inside q' hq'

theorem madeAt_eq (h : Twins place d₀ t₀ d t) (hclear : p.IsClear place d₀.workingDirectory) :
    t.madeAt p = d.madeAt p := by
  rw [madeAt, h.resolve_eq hclear.withoutEndSlashes, madeAt]

theorem writtenAt_eq (h : Twins place d₀ t₀ d t) (hclear : p.IsClear place d₀.workingDirectory) :
    t.writtenAt p = d.writtenAt p := by
  simp only [writtenAt, h.resolve_eq hclear, h.resolve_eq hclear.withoutEndSlashes]

/-- A change is refused in both trees for the same reason, or it keeps them alike. -/
def ChangesAlike (place : Place) (d₀ t₀ : Disk) (operation : Disk → Except Refusal Disk) : Prop :=
  ∀ d t, Twins place d₀ t₀ d t → (∃ reason, operation d = .error reason ∧ operation t = .error reason) ∨
    ∃ d' t', operation d = .ok d' ∧ operation t = .ok t' ∧ Twins place d₀ t₀ d' t'

/-- A change that puts something at a place, the same one in both trees, keeps them alike. -/
theorem changesAlike_of_map {operation : Disk → Except Refusal Disk} {placed : Disk → Except Refusal Place} {e : Entry}
    (hoperation : ∀ d, operation d = (placed d).map (d.put · e))
    (hplain : ∀ d d', d.IsPlain → operation d = .ok d' → d'.IsPlain)
    (hplaced : ∀ d t, Twins place d₀ t₀ d t → placed t = placed d)
    (houtside : ∀ d t q, Twins place d₀ t₀ d t → placed d = .ok q → q ≠ [] ∧ ¬ place.IsBelow q) :
    ChangesAlike place d₀ t₀ operation := by
  intro d t h
  have hd := hoperation d
  have ht := hoperation t
  rw [hplaced d t h] at ht
  cases hq : placed d with
  | error reason =>
    rw [hq] at hd ht
    exact .inl ⟨reason, hd, ht⟩
  | ok q =>
    rw [hq] at hd ht
    obtain ⟨hroot, hbelow⟩ := houtside d t q h hq
    exact .inr ⟨_, _, hd, ht, h.put hroot hbelow (hplain d _ h.plain hd) (hplain t _ h.plain' ht)⟩

theorem not_isBelow (h : Twins place d₀ t₀ d t) (hclear : p.IsClear place d₀.workingDirectory) :
    ¬ place.IsBelow (d.placeOf p) :=
  (h.workingDirectory ▸ hclear).placeOf

/-- **Making a directory** under a clear path. -/
theorem makeDirectory (hclear : p.IsClear place d₀.workingDirectory) :
    ChangesAlike place d₀ t₀ (·.makeDirectory p) := by
  refine changesAlike_of_map (makeDirectory_eq_map · p) (fun _ _ hplain => hplain.of_makeDirectory)
    (fun _ _ h => h.madeAt_eq hclear) fun d t q h hq => ?_
  obtain ⟨rfl, hroot, _⟩ := h.plain.linkFree.of_madeAt hq
  exact ⟨hroot, h.not_isBelow hclear⟩

/-- **Writing a file** under a clear path. -/
theorem write (hclear : p.IsClear place d₀.workingDirectory) (c : Content) :
    ChangesAlike place d₀ t₀ (·.write p c) := by
  refine changesAlike_of_map (write_eq_map · p c) (fun _ _ hplain => hplain.of_write)
    (fun _ _ h => h.writtenAt_eq hclear)
    fun d t q h hq => ?_
  obtain ⟨rfl, hroot, _⟩ := h.plain.linkFree.of_writtenAt hq
  exact ⟨hroot, h.not_isBelow hclear⟩

end Twins

end Disk

end InteropBindings
