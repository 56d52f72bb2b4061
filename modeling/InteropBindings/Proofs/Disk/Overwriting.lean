import InteropBindings.Proofs.Disk.Trees

/-!
# Files written again

Files that are there are written once more, one after the other. That changes texts only: the places and what kind of
thing stands at each stay, and in the end each file holds what was written to it last
(`Disk.LinkFree.sameShape_overwriteAll`). So a tree in which the same texts were written last already stays as it is
(`Disk.WritesAll.overwriteAll_eq`).
-/

namespace InteropBindings.Disk

open InteropBindings.Path

variable {d d' d'' : Disk} {place : Place} {ws vs : List Write}

/-! ## The last text -/

/-- The text that some writes leave at a place. -/
def lastText (d : Disk) (place : Place) : List Write → Option String
  | [] => none
  | w :: ws => (lastText d place ws).or (if d.placeOf w.1 = place then some w.2 else none)

/-- Later writes count. -/
theorem lastText_append (d : Disk) (place : Place) (ws vs : List Write) :
    d.lastText place (ws ++ vs) = (d.lastText place vs).or (d.lastText place ws) := by
  induction ws with
  | nil => simp [lastText]
  | cons w ws ih => rw [List.cons_append, lastText, lastText, ih, Option.or_assoc]

theorem lastText_eq_none_iff : d.lastText place ws = none ↔ ∀ w ∈ ws, d.placeOf w.1 ≠ place := by
  induction ws with
  | nil => simp [lastText]
  | cons w ws ih => simp [lastText, ih, and_comm]

/-- What is left at a place depends on the writes to it only. -/
theorem lastText_congr (h : List.Forall₂ (fun w v => w.1 = v.1 ∧ (d.placeOf w.1 = place → w.2 = v.2)) ws vs) :
    d.lastText place ws = d.lastText place vs := by
  induction h with
  | nil => rfl
  | cons hfirst _ ih =>
    obtain ⟨hpath, htext⟩ := hfirst
    rw [lastText, lastText, ih, ← hpath]
    split
    · next hplace => rw [htext hplace]
    · rfl

theorem lastText_of_workingDirectory (h : d'.workingDirectory = d.workingDirectory) (place : Place) (ws : List Write) :
    d'.lastText place ws = d.lastText place ws := by
  induction ws with
  | nil => rfl
  | cons w ws ih => rw [lastText, lastText, ih, placeOf, placeOf, h]

/-- **What some writes leave** at a place is there in the end. -/
theorem WritesAll.entryAt_of_lastText (h : WritesAll d ws d') (hlinks : d.LinkFree) {text : String}
    (hlast : d.lastText place ws = some text) : d'.entryAt place = some (.file (.text text)) := by
  induction ws generalizing d with
  | nil => cases hlast
  | cons w ws ih =>
    obtain ⟨d₁, hstores, hrest⟩ := h
    obtain ⟨hg, q, hq, hentry, _⟩ := hstores.exists
    have hlinks₁ := hg.linkFree hlinks
    have hplaces : ∀ p, d₁.placeOf p = d.placeOf p := fun p => by rw [placeOf, placeOf, hg.workingDirectory]
    rw [lastText, ← lastText_of_workingDirectory hg.workingDirectory] at hlast
    cases hlater : d₁.lastText place ws with
    | some text' =>
      rw [hlater] at hlast
      cases hlast
      exact ih hrest hlinks₁ hlater
    | none =>
      rw [hlater] at hlast
      -- The first write is the last one to this place.
      by_cases hplace : d.placeOf w.1 = place
      · rw [if_pos hplace] at hlast
        cases hlast
        obtain rfl : q = place := by rw [hlinks₁.fileAt? hq, hplaces, hplace]
        refine hrest.entryAt hentry fun v hv hv' => lastText_eq_none_iff.mp hlater v hv ?_
        rw [(hrest.grows.linkFree hlinks₁).fileAt? hv', placeOf, placeOf, hrest.grows.workingDirectory]
      · rw [if_neg hplace] at hlast
        cases hlast

/-! ## Shapes -/

/-- The same kinds of things stand at the same places. -/
structure SameShape (d d' : Disk) : Prop where
  workingDirectory : d'.workingDirectory = d.workingDirectory
  keys : d'.entries.keys = d.entries.keys
  kind : ∀ place, (d'.entryAt place).map kindOf = (d.entryAt place).map kindOf

namespace SameShape

theorem refl (d : Disk) : SameShape d d := ⟨rfl, rfl, fun _ => rfl⟩

theorem trans (h : SameShape d d') (h' : SameShape d' d'') : SameShape d d'' :=
  ⟨h'.workingDirectory.trans h.workingDirectory, h'.keys.trans h.keys, fun place =>
    (h'.kind place).trans (h.kind place)⟩

/-- A tree of the same shape counts as one that has grown. -/
theorem grows (h : SameShape d d') (hlinks : d.LinkFree) : d.Grows d' := by
  refine ⟨h.workingDirectory, fun place e he => ?_, fun place target hlink => ?_⟩
  · have hkind := h.kind place
    rw [he] at hkind
    obtain ⟨e', he', hsame⟩ := Option.map_eq_some_iff.mp hkind
    refine ⟨e', he', ?_⟩
    cases e with
    | link target => exact absurd he (hlinks place target)
    | directory =>
      cases e' with
      | directory => exact .same _
      | _ => cases hsame
    | file c =>
      cases e' with
      | file c' => exact .file c c'
      | _ => cases hsame
  · have hkind := h.kind place
    rw [hlink] at hkind
    obtain ⟨e, he, hsame⟩ := Option.map_eq_some_iff.mp hkind.symm
    cases e with
    | link target' => exact absurd he (hlinks place target')
    | _ => cases hsame

/-- The same is listed in a directory. -/
theorem kinds (h : SameShape d d') (hn : d.entries.keys.Nodup) (directory : Place) :
    d'.kinds directory = d.kinds directory := by
  rw [kinds_eq hn, kinds_eq (h.keys ▸ hn), h.keys]
  refine List.filterMap_congr fun key _ => ?_
  rw [listed?, listed?]
  cases nameIn directory key with
  | none => rfl
  | some name =>
    have hkind := congrArg (Option.map fun kind => (name, kind)) (h.kind key)
    rw [Option.map_map, Option.map_map] at hkind
    exact hkind

end SameShape

/-! ## Overwriting -/

/-- A tree with a text in a file. -/
def overwrite (d : Disk) (w : Write) : Disk := d.put (d.placeOf w.1) (.file (.text w.2))

/-- A tree with texts in files, one after the other. -/
def overwriteAll (d : Disk) (ws : List Write) : Disk := ws.foldl overwrite d

/-- There is a file under a path, where paths lead to the places that they name. -/
theorem LinkFree.exists_file (hlinks : d.LinkFree) {p : Path} (hp : (d.fileAt? p).isSome) :
    d.placeOf p ≠ [] ∧ ∃ c, d.entryAt (d.placeOf p) = some (.file c) := by
  obtain ⟨place, hplace⟩ := Option.isSome_iff_exists.mp hp
  obtain ⟨c, hresolve, hentry⟩ := exists_of_fileAt? hplace
  obtain ⟨hroot, _⟩ : d.Stands true (.entry place (.file c)) := stands_of_resolve hresolve
  rw [← hlinks.fileAt? hplace]
  exact ⟨hroot, c, hentry⟩

/-- Overwriting a file keeps the shape. -/
theorem LinkFree.sameShape_overwrite (hlinks : d.LinkFree) {w : Write} (hw : (d.fileAt? w.1).isSome) :
    SameShape d (d.overwrite w) := by
  obtain ⟨hroot, c, hc⟩ := hlinks.exists_file hw
  refine ⟨rfl, Ledger.keys_put_of_mem _ ((isSome_entryAt_iff hroot).mp (by rw [hc]; rfl)), fun place => ?_⟩
  rw [overwrite, entryAt_put d _ place _ hroot]
  split
  · next hplace =>
    rw [← hplace, hc]
    rfl
  · rfl

/-- **Overwriting files** keeps the shape, and leaves the last texts. -/
theorem LinkFree.sameShape_overwriteAll (hlinks : d.LinkFree) (hws : ∀ w ∈ ws, (d.fileAt? w.1).isSome) :
    SameShape d (d.overwriteAll ws) ∧ ∀ place, (d.overwriteAll ws).entryAt place =
      match d.lastText place ws with
      | some text => some (.file (.text text))
      | none => d.entryAt place := by
  induction ws generalizing d with
  | nil => exact ⟨.refl d, fun _ => rfl⟩
  | cons w ws ih =>
    have hw := hws w List.mem_cons_self
    have hshape := hlinks.sameShape_overwrite hw
    have hg := hshape.grows hlinks
    obtain ⟨hrest, hentries⟩ := ih (d := d.overwrite w) (hg.linkFree hlinks) fun v hv => by
      obtain ⟨place, hplace⟩ := Option.isSome_iff_exists.mp (hws v (List.mem_cons_of_mem _ hv))
      rw [hg.fileAt? hplace]
      rfl
    refine ⟨hshape.trans hrest, fun place => (hentries place).trans ?_⟩
    rw [lastText_of_workingDirectory hshape.workingDirectory, lastText]
    cases d.lastText place ws with
    | some text => rfl
    | none =>
      change (d.overwrite w).entryAt place = _
      rw [overwrite, entryAt_put d _ place _ (hlinks.exists_file hw).1]
      split <;> rfl

/-- **Writing the same texts again** changes nothing. -/
theorem WritesAll.overwriteAll_eq (h : WritesAll d ws d') (hlinks : d.LinkFree) (ht : d'.IsTree)
    (hpaths : vs.map Prod.fst = ws.map Prod.fst) (hlast : ∀ place, d'.lastText place vs = d'.lastText place ws) :
    d'.overwriteAll vs = d' := by
  have hlinks' := h.grows.linkFree hlinks
  have hthere : ∀ v ∈ vs, (d'.fileAt? v.1).isSome := by
    intro v hv
    have hmem : v.1 ∈ ws.map Prod.fst := hpaths ▸ List.mem_map_of_mem hv
    obtain ⟨w, hw, hpath⟩ := List.mem_map.mp hmem
    rw [← hpath]
    exact h.isSome_fileAt? hw
  obtain ⟨hshape, hentries⟩ := hlinks'.sameShape_overwriteAll hthere
  have hsame : ∀ place, (d'.overwriteAll vs).entryAt place = d'.entryAt place := by
    intro place
    rw [hentries, hlast]
    cases hwritten : d'.lastText place ws with
    | none => rfl
    | some text =>
      rw [lastText_of_workingDirectory h.grows.workingDirectory] at hwritten
      exact (h.entryAt_of_lastText hlinks hwritten).symm
  have hledger : (d'.overwriteAll vs).entries = d'.entries := by
    refine Ledger.ext_of_keys (hshape.keys ▸ ht.nodup) hshape.keys fun place hplace => ?_
    have hroot : place ≠ [] := by
      obtain ⟨around, name, rfl, _⟩ := ht.exists_name (hshape.keys ▸ hplace)
      simp
    have hentry := hsame place
    rwa [Disk.entryAt, Disk.entryAt, if_neg hroot, if_neg hroot] at hentry
  cases hd : d'.overwriteAll vs with
  | mk entries workingDirectory =>
    rw [hd] at hledger hshape
    obtain ⟨rfl, _, _⟩ := hshape
    cases hledger
    rfl

end InteropBindings.Disk
