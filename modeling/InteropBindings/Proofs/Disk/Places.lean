import InteropBindings.Proofs.Disk.Writes
import InteropBindings.Proofs.Ledger
import InteropBindings.Proofs.Path.Components
import Mathlib.Data.List.TakeWhile

/-!
# Places in trees without links

Where there are no links, a path leads to the place that its components name (`Disk.LinkFree.place_of_resolve`). So
paths with the same components lead to the same file, and below one directory paths through different names lead to
different files.
-/

namespace InteropBindings

open Text InteropBindings.Path

/-- The place of a target. -/
def Target.place : Target → Place
  | .entry place _ | .free place => place

/-- The place that a component leads to. -/
def Place.descend (here : Place) : Component → Place
  | .root => []
  | .here => here
  | .parent => here.dropLast
  | .normal name => here ++ [name]

theorem Place.foldl_descend_normal (here : Place) (names : List RawText) :
    (names.map Component.normal).foldl descend here = here ++ names := by
  induction names generalizing here with
  | nil => simp
  | cons n names ih => rw [List.map_cons, List.foldl_cons, ih, descend, List.append_assoc, List.singleton_append]

namespace Disk

variable {d d' : Disk}

/-- The place that the components of a path lead to. -/
def placeOf (d : Disk) (p : Path) : Place := p.components.foldl Place.descend d.workingDirectory

/-- There are no links in a tree. -/
def LinkFree (d : Disk) : Prop := ∀ place target, d.entryAt place ≠ some (.link target)

theorem mem_entries_of_entryAt {place : Place} {e : Entry} (h : d.entryAt place = some e) (hroot : place ≠ []) :
    (place, e) ∈ d.entries.entries := by
  rw [entryAt, if_neg hroot] at h
  exact Ledger.mem_of_lookup h

theorem linkFree_of_entries (h : ∀ e ∈ d.entries.entries, kindOf e.2 ≠ .link) : d.LinkFree := by
  intro place target hlink
  by_cases hroot : place = []
  · rw [entryAt, if_pos hroot] at hlink
    cases hlink
  · exact h _ (mem_entries_of_entryAt hlink hroot) rfl

/-- The component of a piece. -/
def stepOf? (piece : RawText) : Option Component := componentOf? piece.toList

theorem filterMap_pieces (p : Path) : (pieces p).filterMap stepOf? = stepsOf p.text := by
  have hcomponent : stepOf? ∘ RawText.ofList = componentOf? := by
    funext piece
    rw [Function.comp_apply, stepOf?, RawText.toList_ofList]
  rw [pieces, RawText.segments, List.filterMap_map, hcomponent, stepsOf]

/-- Where a piece leads. -/
theorem stepOf?_eq (piece : RawText) : stepOf? piece =
    if staysHere piece = true then none else if piece = ".." then some .parent else some (.normal piece) := by
  have hpoint : piece.toList = [point] ↔ piece = "." := RawText.toList_inj (b := ".")
  have hpoints : piece.toList = [point, point] ↔ piece = ".." := RawText.toList_inj (b := "..")
  have hfiller : isFiller piece.toList = staysHere piece := by
    rw [Bool.eq_iff_iff]
    simp [isFiller, staysHere, hpoint]
  have hparent : piece.toList == [point, point] ↔ piece = ".." := by
    rw [beq_iff_eq, hpoints]
  rw [stepOf?, componentOf?, hfiller, RawText.ofList_toList]
  simp only [hparent]

theorem LeadsDown.stepOf?_eq {piece : RawText} (h : LeadsDown piece) : stepOf? piece = some (.normal piece) := by
  have hstays : ¬ staysHere piece = true := Bool.eq_false_iff.mp h.leaves
  rw [Disk.stepOf?_eq, if_neg hstays, if_neg (ne_of_beq_false h.notUp)]

/-- Where there are no links, pieces lead to the place that their steps name. -/
theorem LinkFree.place_of_follow (h : d.LinkFree) {last : Bool} {onLink : Place → List RawText → Except Refusal Target}
    {here : Place} {rest : List RawText} {t : Target} (hfollow : d.follow last onLink here rest = .ok t) :
    t.place = (rest.filterMap stepOf?).foldl Place.descend here := by
  rw [follow_eq_ok_iff] at hfollow
  induction hfollow with
  | here => rfl
  | stays hstays _ ih =>
    rw [List.filterMap_cons, stepOf?_eq, if_pos hstays]
    exact ih
  | up _ ih => exact ih
  | directory hdown _ _ ih =>
    rw [List.filterMap_cons, hdown.stepOf?_eq]
    exact ih
  | file hdown =>
    rw [List.filterMap_cons, hdown.stepOf?_eq]
    rfl
  | @free here piece rest hdown _ hslashes _ =>
    have hrest : rest.filterMap stepOf? = [] := List.filterMap_eq_nil_iff.mpr fun x hx => hslashes x hx ▸ rfl
    rw [List.filterMap_cons, hdown.stepOf?_eq, hrest]
    rfl
  | link _ hentry => exact absurd hentry (h _ _)
  | through _ hentry => exact absurd hentry (h _ _)

/-- The start of a path leads to where the path starts. -/
theorem foldl_anchor (here : Place) (p : Path) : p.split.1.components.foldl Place.descend here = startOf here p := by
  rw [startOf]
  by_cases h : p.isAbsolute = true
  · rw [if_pos h, (anchor_eq_root_iff p).mpr h]
    rfl
  · rw [if_neg h]
    have hanchor : p.split.1 ≠ .root := fun he => h ((anchor_eq_root_iff p).mp he)
    cases hsplit : p.split.1 with
    | root => exact absurd hsplit hanchor
    | here => rfl
    | none => rfl

theorem foldl_stepsOf (d : Disk) (p : Path) :
    (stepsOf p.text).foldl Place.descend (startOf d.workingDirectory p) = d.placeOf p := by
  rw [placeOf, components_eq, List.foldl_append, foldl_anchor]

/-- **Where there are no links**, a path leads to the place that its components name. -/
theorem LinkFree.place_of_resolve (h : d.LinkFree) {last : Bool} {p : Path} {t : Target}
    (hp : d.resolve last p = .ok t) :
    t.place = d.placeOf p := by
  unfold resolve at hp
  split at hp
  · cases hp
  split at hp
  · cases hp
  split at hp
  · cases hp
  · rw [followLinks] at hp
    rw [h.place_of_follow hp, filterMap_pieces, foldl_stepsOf]

theorem LinkFree.fileAt? (h : d.LinkFree) {p : Path} {place : Place} (hp : d.fileAt? p = some place) :
    place = d.placeOf p := by
  obtain ⟨c, hresolve⟩ := fileAt?_eq_some_iff.mp hp
  exact h.place_of_resolve hresolve

/-! ## Slashes at the end -/

/-- A path without its slashes at the end is followed by slashes only, or is the path. -/
theorem text_withoutEndSlashes (p : Path) : withoutEndSlashes p = p ∨ ((withoutEndSlashes p).text ≠ "" ∧
    ∃ count, p.text = (withoutEndSlashes p).text ++ "/" ++ RawText.ofList (List.replicate count slash)) := by
  let trimmed := (p.text.toList.reverse.dropWhile (· == slash)).reverse
  let slashes := (p.text.toList.reverse.takeWhile (· == slash)).reverse
  have hcut : p.text.toList = trimmed ++ slashes := by
    rw [← List.reverse_append, List.takeWhile_append_dropWhile, List.reverse_reverse]
  have hslashes : slashes = List.replicate slashes.length slash := by
    refine List.eq_replicate_of_mem fun c hc => ?_
    simpa using List.mem_takeWhile_imp (List.mem_reverse.mp hc)
  have hpath : withoutEndSlashes p = if trimmed.isEmpty then p else ⟨RawText.ofList trimmed⟩ := rfl
  rw [hpath]
  split
  · exact .inl rfl
  · next hnonempty =>
    cases hlength : slashes.length with
    | zero =>
      rw [List.length_eq_zero_iff.mp hlength, List.append_nil] at hcut
      exact .inl (by rw [← hcut, RawText.ofList_toList])
    | succ count =>
      refine .inr ⟨by simpa using hnonempty, count, ?_⟩
      rw [← RawText.toList_inj, hcut, hslashes, hlength, List.replicate_succ]
      simp

/-- Slashes are no steps. -/
theorem stepsOf_slashes (count : Nat) : stepsOf (RawText.ofList (List.replicate count slash)) = [] := by
  induction count with
  | zero => rfl
  | succ count ih =>
    have htext : RawText.ofList (List.replicate (count + 1) slash) =
        "" ++ "/" ++ RawText.ofList (List.replicate count slash) := by
      rw [← RawText.toList_inj, List.replicate_succ]
      simp
    rw [htext, stepsOf_append_slash, ih]
    rfl

theorem components_withoutEndSlashes (p : Path) : (withoutEndSlashes p).components = p.components := by
  rcases text_withoutEndSlashes p with heq | ⟨hne, count, htext⟩
  · rw [heq]
  · have happend := components_append_slash hne (RawText.ofList (List.replicate count slash))
    rw [← htext, stepsOf_slashes, List.append_nil] at happend
    exact happend.symm

theorem placeOf_withoutEndSlashes (d : Disk) (p : Path) : d.placeOf (withoutEndSlashes p) = d.placeOf p := by
  rw [placeOf, components_withoutEndSlashes, placeOf]

/-! ## Changes -/

/-- The place where a directory is made. -/
def madeAt (d : Disk) (p : Path) : Except Refusal Place := do
  match ← d.resolve false (withoutEndSlashes p) with
  | .entry _ _ => throw .alreadyThere
  | .free q => return q

/-- The place where a file is written. -/
def writtenAt (d : Disk) (p : Path) : Except Refusal Place := do
  if p.text.endsWith "/" then
    let _ ← d.resolve false (withoutEndSlashes p)
    throw Refusal.isDirectory
  match ← d.resolve true p with
  | .entry _ .directory => throw .isDirectory
  | .entry q _ | .free q => return q

theorem makeDirectory_eq_map (d : Disk) (p : Path) : d.makeDirectory p = (d.madeAt p).map (d.put · .directory) := by
  unfold makeDirectory madeAt
  cases d.resolve false (withoutEndSlashes p) with
  | error reason => rfl
  | ok target => cases target <;> rfl

/-- A file that is written is put at its place. -/
theorem write_eq_map (d : Disk) (p : Path) (c : Content) : d.write p c = (d.writtenAt p).map (d.put · (.file c)) := by
  unfold write writtenAt
  split
  · cases d.resolve false (withoutEndSlashes p) <;> rfl
  · cases d.resolve true p with
    | error reason => rfl
    | ok target =>
      cases target with
      | free q => rfl
      | entry q e => cases e <;> rfl

/-- A directory is made at a free place that its path leads to. -/
theorem resolve_of_madeAt {p : Path} {q : Place} (hq : d.madeAt p = .ok q) :
    d.resolve false (withoutEndSlashes p) = .ok (.free q) := by
  unfold madeAt at hq
  cases hd : d.resolve false (withoutEndSlashes p) with
  | error reason => rw [hd] at hq; cases hq
  | ok target =>
    rw [hd] at hq
    cases target with
    | entry _ _ => cases hq
    | free q' =>
      cases hq
      rfl

/-- A file is written at a free place that its path leads to, or at that of a file. -/
theorem resolve_of_writtenAt {p : Path} {q : Place} (hq : d.writtenAt p = .ok q) :
    d.resolve true p = .ok (.free q) ∨ ∃ c, d.resolve true p = .ok (.entry q (.file c)) := by
  unfold writtenAt at hq
  split at hq
  · cases hd : d.resolve false (withoutEndSlashes p) <;> rw [hd] at hq <;> cases hq
  · cases hd : d.resolve true p with
    | error reason => rw [hd] at hq; cases hq
    | ok target =>
      rw [hd] at hq
      cases target with
      | free q' =>
        cases hq
        exact .inl rfl
      | entry q' e =>
        cases e with
        | directory => cases hq
        | file c =>
          cases hq
          exact .inr ⟨c, rfl⟩
        | link target =>
          have hstands : d.Stands true (.entry q' (.link target)) := stands_of_resolve hd
          cases hstands

/-- **A directory is made** at the place that its path names, where there was nothing. -/
theorem LinkFree.of_madeAt (h : d.LinkFree) {p : Path} {q : Place} (hq : d.madeAt p = .ok q) :
    q = d.placeOf p ∧ q ≠ [] ∧ d.entryAt q = none := by
  have hresolve := resolve_of_madeAt hq
  exact ⟨(h.place_of_resolve hresolve).trans (placeOf_withoutEndSlashes d p), stands_of_resolve hresolve⟩

/-- **A file is written** at the place that its path names, where there was a file or nothing. -/
theorem LinkFree.of_writtenAt (h : d.LinkFree) {p : Path} {q : Place} (hq : d.writtenAt p = .ok q) :
    q = d.placeOf p ∧ q ≠ [] ∧ ∀ e, d.entryAt q = some e → kindOf e = .file := by
  rcases resolve_of_writtenAt hq with hresolve | ⟨c, hresolve⟩
  · obtain ⟨hroot, hnone⟩ : d.Stands true (.free q) := stands_of_resolve hresolve
    exact ⟨h.place_of_resolve hresolve, hroot, fun e he => by rw [hnone] at he; cases he⟩
  · obtain ⟨hroot, hthere⟩ : d.Stands true (.entry q (.file c)) := stands_of_resolve hresolve
    exact ⟨h.place_of_resolve hresolve, hroot, fun e he => by rw [hthere] at he; cases he; rfl⟩

/-! ## The same place -/

theorem Grows.linkFree (hg : d.Grows d') (h : d.LinkFree) : d'.LinkFree :=
  fun place target hlink => h place target (hg.link place target hlink)

/-- **Where there are no links**, two paths that lead to files lead to the same one when their components name the same
place. -/
theorem LinkFree.sameFile_iff (h : d.LinkFree) {p q : Path} (hp : (d.fileAt? p).isSome) (hq : (d.fileAt? q).isSome) :
    d.SameFile p q ↔ d.placeOf p = d.placeOf q := by
  obtain ⟨place, hplace⟩ := Option.isSome_iff_exists.mp hp
  obtain ⟨place', hplace'⟩ := Option.isSome_iff_exists.mp hq
  rw [SameFile, hplace, hplace', ← h.fileAt? hplace, ← h.fileAt? hplace']
  simp

/-- Where there are no links, two paths with the same components lead to the same file, if to any. -/
theorem LinkFree.sameFile_of_components (h : d.LinkFree) {p q : Path} (hp : (d.fileAt? p).isSome)
    (hq : (d.fileAt? q).isSome) (hcomponents : p.components = q.components) : d.SameFile p q := by
  rw [h.sameFile_iff hp hq, placeOf, placeOf, hcomponents]

theorem LinkFree.placeOf_eq (h : d.LinkFree) {p q : Path} (hsame : d.SameFile p q) : d.placeOf p = d.placeOf q :=
  (h.sameFile_iff hsame.1 hsame.symm.1).mp hsame

end Disk

end InteropBindings
