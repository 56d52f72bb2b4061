import InteropBindings.Proofs.Disk.Directories
import InteropBindings.Proofs.Ledger
import Mathlib.Data.List.Induction
import Mathlib.Data.List.Nodup
import Mathlib.Data.List.Perm.Subperm

/-!
# Trees

In a tree everything stands in a directory, under a name that a path can have (`Disk.IsTree`). Making directories and
writing files keeps that, and what comes new goes last (`Disk.Extends`).

- no place lies deeper than there are entries (`Disk.IsTree.length_le`);
- the entries of a directory in an extended tree are those that it had, with the same kinds, and new ones behind them
  (`Disk.Extends.kinds`).
-/

namespace InteropBindings.Disk

open InteropBindings.Path

variable {d d' d'' : Disk} {place : Place} {written : Path → Prop}

/-! ## Well-formed trees -/

/-- Every place comes once, has a name, and lies in a directory. Paths start in a directory. -/
structure IsTree (d : Disk) : Prop where
  nodup : d.entries.keys.Nodup
  named : ∀ place ∈ d.entries.keys, IsEntryName (place.getLastD "")
  inside : ∀ place ∈ d.entries.keys, d.entryAt place.dropLast = some .directory
  start : d.entryAt d.workingDirectory = some .directory

instance : DecidablePred IsTree := fun d =>
  decidable_of_iff (d.entries.keys.Nodup ∧ (∀ place ∈ d.entries.keys, IsEntryName (place.getLastD "")) ∧
      (∀ place ∈ d.entries.keys, d.entryAt place.dropLast = some .directory) ∧
      d.entryAt d.workingDirectory = some .directory)
    ⟨fun ⟨h₁, h₂, h₃, h₄⟩ => ⟨h₁, h₂, h₃, h₄⟩, fun ⟨h₁, h₂, h₃, h₄⟩ => ⟨h₁, h₂, h₃, h₄⟩⟩

instance : DecidablePred LinkFree := fun d =>
  decidable_of_iff (∀ e ∈ d.entries.keys, (d.entryAt e).map kindOf ≠ some .link) (by
    constructor
    · intro h place target hlink
      by_cases hroot : place = []
      · rw [entryAt, if_pos hroot] at hlink
        cases hlink
      · exact h place (List.mem_map.mpr ⟨_, mem_entries_of_entryAt hlink hroot, rfl⟩) (by rw [hlink]; rfl)
    · intro h place _ hlink
      cases hentry : d.entryAt place with
      | none => rw [hentry] at hlink; cases hlink
      | some e =>
        cases e with
        | link target => exact h place target hentry
        | _ => rw [hentry] at hlink; cases hlink)

theorem isSome_entryAt_iff (hroot : place ≠ []) : (d.entryAt place).isSome ↔ place ∈ d.entries.keys := by
  rw [entryAt, if_neg hroot]
  exact Ledger.lookup_isSome place d.entries.entries

namespace IsTree

/-- A place is a name in a directory. -/
theorem exists_name (h : d.IsTree) (hplace : place ∈ d.entries.keys) :
    ∃ around name, place = around ++ [name] ∧ IsEntryName name ∧ d.entryAt around = some .directory := by
  have hname := h.named place hplace
  have hinside := h.inside place hplace
  rcases List.eq_nil_or_concat' place with rfl | ⟨around, name, rfl⟩
  · exact absurd rfl hname.1.1
  · rw [List.getLastD_eq_getLast?, List.getLast?_concat, Option.getD_some] at hname
    rw [List.dropLast_concat] at hinside
    exact ⟨around, name, rfl, hname, hinside⟩

theorem of_entryAt (h : d.IsTree) {around : Place} {name : RawText} {e : Entry}
    (hentry : d.entryAt (around ++ [name]) = some e) : IsEntryName name ∧ d.entryAt around = some .directory := by
  have hroot : around ++ [name] ≠ [] := by simp
  have hmem : around ++ [name] ∈ d.entries.keys := (isSome_entryAt_iff hroot).mp (by rw [hentry]; rfl)
  obtain ⟨around', name', heq, hname, hdirectory⟩ := h.exists_name hmem
  obtain ⟨rfl, hnames⟩ := List.append_inj' heq rfl
  cases hnames
  exact ⟨hname, hdirectory⟩

/-- Above an entry there are directories only. -/
theorem directory_of_append (h : d.IsTree) {names : List RawText} (hnames : names ≠ []) {e : Entry}
    (hentry : d.entryAt (place ++ names) = some e) : d.entryAt place = some .directory := by
  induction names using List.reverseRecOn generalizing e with
  | nil => exact absurd rfl hnames
  | append_singleton names name ih =>
    rw [← List.append_assoc] at hentry
    have hdirectory := (h.of_entryAt hentry).2
    by_cases hnil : names = []
    · rwa [hnil, List.append_nil] at hdirectory
    · exact ih hnil hdirectory

/-- What stands under the first of some names: the entry that they lead to, or a directory on the way. -/
theorem entryAt_first (h : d.IsTree) {name : RawText} {rest : List RawText} {e : Entry}
    (hentry : d.entryAt (place ++ name :: rest) = some e) :
    rest = [] ∧ d.entryAt (place ++ [name]) = some e ∨
    rest ≠ [] ∧ d.entryAt (place ++ [name]) = some .directory ∧ d.entryAt (place ++ [name] ++ rest) = some e := by
  rw [List.append_cons] at hentry
  by_cases hrest : rest = []
  · rw [hrest, List.append_nil] at hentry
    exact .inl ⟨hrest, hentry⟩
  · exact .inr ⟨hrest, h.directory_of_append hrest hentry, hentry⟩

theorem directory_dropLast (h : d.IsTree) (hplace : d.entryAt place = some .directory) :
    d.entryAt place.dropLast = some .directory := by
  by_cases hroot : place = []
  · subst hroot
    exact hplace
  · exact h.inside place ((isSome_entryAt_iff hroot).mp (by rw [hplace]; rfl))

/-- A place lies no deeper than there are entries. -/
theorem length_le (h : d.IsTree) (hplace : place ∈ d.entries.keys) : place.length ≤ d.entries.size := by
  -- The beginnings of a place are as many different places of the tree.
  let starts := (List.range place.length).map fun n => place.take (n + 1)
  have hnodup : starts.Nodup := by
    refine List.Nodup.map_on (fun n hn m hm heq => ?_) List.nodup_range
    have hlength := congrArg List.length heq
    rw [List.mem_range] at hn hm
    rw [List.length_take, List.length_take] at hlength
    omega
  have hsubset : starts ⊆ d.entries.keys := by
    intro start hstart
    obtain ⟨n, hn, rfl⟩ := List.mem_map.mp hstart
    rw [List.mem_range] at hn
    have hroot : place ≠ [] := List.ne_nil_of_length_pos (by omega)
    obtain ⟨e, he⟩ := Option.isSome_iff_exists.mp ((isSome_entryAt_iff hroot).mpr hplace)
    refine (isSome_entryAt_iff (by simp [hroot])).mp ?_
    rw [← List.take_append_drop (n + 1) place] at he
    by_cases hrest : place.drop (n + 1) = []
    · rw [hrest, List.append_nil] at he
      rw [he]
      rfl
    · rw [h.directory_of_append hrest he]
      rfl
  have hlength : starts.length ≤ d.entries.keys.length := (hnodup.subperm hsubset).length_le
  rw [List.length_map, List.length_range, Ledger.length_keys] at hlength
  exact hlength

end IsTree

/-! ## Names and kinds -/

/-- The entries of a directory by their names, with their kinds. -/
def kinds (d : Disk) (place : Place) : List (RawText × Kind) := (d.children place).map fun e => (e.1, kindOf e.2)

/-- The name of a place in a directory. -/
theorem nameIn_eq_some_iff {directory : Place} {name : RawText} :
    nameIn directory place = some name ↔ place = directory ++ [name] := by
  unfold nameIn
  constructor
  · intro h
    split at h
    · next hdrop =>
      split at h
      · next hprefix =>
        cases h
        obtain ⟨rest, rfl⟩ := List.isPrefixOf_iff_prefix.mp hprefix
        rw [List.drop_left] at hdrop
        rw [hdrop]
      · cases h
    · cases h
  · rintro rfl
    simp

/-- The kind under which a place is listed in a directory. -/
def listed? (d : Disk) (directory place : Place) : Option (RawText × Kind) :=
  (nameIn directory place).bind fun name => (d.entryAt place).map fun e => (name, kindOf e)

theorem listed?_eq_some_iff {directory : Place} {name : RawText} {kind : Kind} :
    d.listed? directory place = some (name, kind) ↔
    place = directory ++ [name] ∧ (d.entryAt place).map kindOf = some kind := by
  simp only [listed?, Option.bind_eq_some_iff, nameIn_eq_some_iff, Option.map_eq_some_iff, Prod.mk.injEq]
  constructor
  · rintro ⟨_, hplace, e, he, rfl, hkind⟩
    exact ⟨hplace, e, he, hkind⟩
  · rintro ⟨hplace, e, he, hkind⟩
    exact ⟨name, hplace, e, he, rfl, hkind⟩

/-- The entries of a directory in a tree, from its places. -/
theorem kinds_eq (hn : d.entries.keys.Nodup) (directory : Place) :
    d.kinds directory = d.entries.keys.filterMap (d.listed? directory) := by
  rw [kinds, children, List.map_filterMap, Ledger.keys, List.filterMap_map]
  refine List.filterMap_congr fun e he => ?_
  rw [Function.comp_apply, listed?]
  cases hname : nameIn directory e.1 with
  | none => rfl
  | some name =>
    have hroot : e.1 ≠ [] := by rw [nameIn_eq_some_iff.mp hname]; simp
    have hentry : d.entryAt e.1 = some e.2 := by
      rw [entryAt, if_neg hroot]
      exact Ledger.lookup_of_mem hn he
    rw [hentry]
    rfl

/-- What is listed in a directory stands there. -/
theorem mem_kinds_iff (hn : d.entries.keys.Nodup) {directory : Place} {name : RawText} {kind : Kind} :
    (name, kind) ∈ d.kinds directory ↔ (d.entryAt (directory ++ [name])).map kindOf = some kind := by
  rw [kinds_eq hn, List.mem_filterMap]
  simp only [listed?_eq_some_iff]
  constructor
  · rintro ⟨_, _, rfl, hkind⟩
    exact hkind
  · intro hkind
    refine ⟨_, (isSome_entryAt_iff (by simp)).mp ?_, rfl, hkind⟩
    cases hentry : d.entryAt (directory ++ [name]) with
    | none => rw [hentry] at hkind; cases hkind
    | some e => rfl

theorem mem_kinds_iff_exists (hn : d.entries.keys.Nodup) {directory : Place} {name : RawText} {kind : Kind} :
    (name, kind) ∈ d.kinds directory ↔ ∃ e, d.entryAt (directory ++ [name]) = some e ∧ kindOf e = kind := by
  rw [mem_kinds_iff hn, Option.map_eq_some_iff]

/-- No name comes twice in a directory. -/
theorem pairwise_kinds (hn : d.entries.keys.Nodup) (directory : Place) :
    (d.kinds directory).Pairwise fun e e' => e.1 ≠ e'.1 := by
  rw [kinds_eq hn, List.pairwise_filterMap]
  refine hn.imp fun hne e he e' he' hname => hne ?_
  rw [(listed?_eq_some_iff.mp he).1, (listed?_eq_some_iff.mp he').1, hname]

/-- Listing a directory. -/
theorem list_eq_ok_iff {p : Path} {entries : List (RawText × Kind)} :
    d.list p = .ok entries ↔ ∃ place, d.resolve true p = .ok (.entry place .directory) ∧ entries = d.kinds place := by
  unfold list find
  cases hresolve : d.resolve true p with
  | error reason => cases reason <;> simp [bind, Except.bind]
  | ok t =>
    cases t with
    | free q => simp [bind, Except.bind]
    | entry q e =>
      cases e with
      | directory => simp [bind, Except.bind, pure, Except.pure, kinds, eq_comm]
      | file c => simp [bind, Except.bind, throw, throwThe, MonadExceptOf.throw]
      | link target => simp [bind, Except.bind, throw, throwThe, MonadExceptOf.throw]

/-- A status says that a path leads to a directory. -/
theorem resolve_of_status {p : Path} {st : Status} (h : d.status p = .ok st) (hkind : st.kind = .directory) :
    d.resolve true p = .ok (.entry st.place .directory) := by
  unfold status find at h
  cases hresolve : d.resolve true p with
  | error reason =>
    rw [hresolve] at h
    cases reason <;> cases h
  | ok t =>
    rw [hresolve] at h
    cases t with
    | free q => cases h
    | entry q e =>
      cases h
      cases e with
      | directory => rfl
      | _ => cases hkind

/-! ## Extended trees -/

/-- A place of one of some paths. -/
def IsPlaceOf (d : Disk) (written : Path → Prop) (place : Place) : Prop := ∃ p, written p ∧ d.placeOf p = place

/-- A tree in which directories were made, and files were written under some paths. What comes new goes last. -/
structure Extends (written : Path → Prop) (d d' : Disk) : Prop where
  workingDirectory : d'.workingDirectory = d.workingDirectory
  keys : d.entries.keys <+: d'.entries.keys
  becomes : ∀ place, d'.entryAt place = d.entryAt place ∨
    (d.entryAt place = none ∧ d'.entryAt place = some .directory) ∨
    (d.IsPlaceOf written place ∧ (∀ e, d.entryAt place = some e → kindOf e = .file) ∧
      ∃ c, d'.entryAt place = some (.file c))

namespace Extends

theorem refl (written : Path → Prop) (d : Disk) : Extends written d d := ⟨rfl, List.prefix_rfl, fun _ => .inl rfl⟩

theorem placeOf (h : Extends written d d') (p : Path) : d'.placeOf p = d.placeOf p := by
  rw [Disk.placeOf, Disk.placeOf, h.workingDirectory]

theorem trans (h : Extends written d d') (h' : Extends written d' d'') : Extends written d d'' := by
  refine ⟨h'.workingDirectory.trans h.workingDirectory, h.keys.trans h'.keys, fun place => ?_⟩
  rcases h'.becomes place with hsame' | ⟨hnone', hmade'⟩ | ⟨⟨p, hp, hplace⟩, hfile', hwritten'⟩
  · rw [hsame']
    exact h.becomes place
  · rcases h.becomes place with hsame | ⟨_, hmade⟩ | ⟨_, _, _, hwritten⟩
    · exact .inr (.inl ⟨hsame ▸ hnone', hmade'⟩)
    · rw [hmade] at hnone'
      cases hnone'
    · rw [hwritten] at hnone'
      cases hnone'
  · rw [h.placeOf] at hplace
    rcases h.becomes place with hsame | ⟨_, hmade⟩ | ⟨_, hfile, _⟩
    · exact .inr (.inr ⟨⟨p, hp, hplace⟩, hsame ▸ hfile', hwritten'⟩)
    · cases hfile' _ hmade
    · exact .inr (.inr ⟨⟨p, hp, hplace⟩, hfile, hwritten'⟩)

theorem mono {written' : Path → Prop} (h : Extends written d d') (hsub : ∀ p, written p → written' p) :
    Extends written' d d' :=
  ⟨h.workingDirectory, h.keys, fun place => (h.becomes place).imp id
    (.imp id fun ⟨⟨p, hp, hplace⟩, hrest⟩ => ⟨⟨p, hsub p hp, hplace⟩, hrest⟩)⟩

/-- An extended tree has grown. -/
theorem grows (h : Extends written d d') : d.Grows d' := by
  refine ⟨h.workingDirectory, fun place e he => ?_, fun place target hlink => ?_⟩
  · rcases h.becomes place with hsame | ⟨hnone, _⟩ | ⟨_, hfile, c, hwritten⟩
    · exact ⟨e, hsame.trans he, .same e⟩
    · rw [he] at hnone
      cases hnone
    · have hkind := hfile e he
      cases e with
      | file c' => exact ⟨_, hwritten, .file c' c⟩
      | _ => cases hkind
  · rcases h.becomes place with hsame | ⟨_, hmade⟩ | ⟨_, _, _, hwritten⟩
    · rwa [hsame] at hlink
    · rw [hmade] at hlink
      cases hlink
    · rw [hwritten] at hlink
      cases hlink

theorem entryAt_file (h : Extends written d d') (hplace : ¬ d.IsPlaceOf written place) {c : Content}
    (hfile : d.entryAt place = some (.file c)) : d'.entryAt place = some (.file c) := by
  rcases h.becomes place with hsame | ⟨hnone, _⟩ | ⟨ht, _⟩
  · exact hsame.trans hfile
  · rw [hfile] at hnone
    cases hnone
  · exact absurd ht hplace

theorem kindOf_eq (h : Extends written d d') {e : Entry} (he : d.entryAt place = some e) :
    (d'.entryAt place).map kindOf = some (kindOf e) := by
  obtain ⟨e', he', hbecomes⟩ := h.grows.becomes place e he
  rw [he']
  cases hbecomes <;> rfl

/-- **The entries of a directory** are those that it had, with the same kinds, and behind them new ones: directories,
and files that were written. -/
theorem kinds (h : Extends written d d') (ht : d.IsTree) (ht' : d'.IsTree) (directory : Place) :
    ∃ new, d'.kinds directory = d.kinds directory ++ new ∧ ∀ e ∈ new, d.entryAt (directory ++ [e.1]) = none ∧
      (e.2 = .directory ∨ (e.2 = .file ∧ d.IsPlaceOf written (directory ++ [e.1]))) := by
  obtain ⟨newKeys, hkeys⟩ := h.keys
  have hold : d.entries.keys.filterMap (d'.listed? directory) = d.kinds directory := by
    rw [kinds_eq ht.nodup]
    refine List.filterMap_congr fun key hkey => ?_
    have hroot : key ≠ [] := by
      obtain ⟨around, name, rfl, _⟩ := ht.exists_name hkey
      simp
    obtain ⟨e, he⟩ := Option.isSome_iff_exists.mp ((isSome_entryAt_iff hroot).mpr hkey)
    have hkind := h.kindOf_eq he
    cases he' : d'.entryAt key with
    | none => rw [he'] at hkind; cases hkind
    | some e' =>
      rw [he'] at hkind
      have hsame : kindOf e' = kindOf e := Option.some.inj hkind
      simp only [listed?, he, he', Option.map_some, hsame]
  refine ⟨newKeys.filterMap (d'.listed? directory), ?_, ?_⟩
  · rw [kinds_eq ht'.nodup, ← hkeys, List.filterMap_append, hold]
  · rintro ⟨name, kind⟩ hmem
    obtain ⟨key, hkey, hlisted⟩ := List.mem_filterMap.mp hmem
    obtain ⟨rfl, hkind⟩ := listed?_eq_some_iff.mp hlisted
    have hnone : d.entryAt (directory ++ [name]) = none := by
      rw [← Option.not_isSome_iff_eq_none, isSome_entryAt_iff (by simp)]
      intro hold
      have hdisjoint := ht'.nodup
      rw [← hkeys, List.nodup_append] at hdisjoint
      exact hdisjoint.2.2 _ hold _ hkey rfl
    refine ⟨hnone, ?_⟩
    rcases h.becomes (directory ++ [name]) with hsame | ⟨_, hmade⟩ | ⟨hplace, _, c, hwritten⟩
    · rw [hsame, hnone] at hkind
      cases hkind
    · rw [hmade] at hkind
      cases hkind
      exact .inl rfl
    · rw [hwritten] at hkind
      cases hkind
      exact .inr ⟨rfl, hplace⟩

end Extends

/-! ## Changes -/

/-- Where there are no links, a free place that a path leads to is a name in a directory. -/
theorem IsTree.exists_of_follow_free (h : d.IsTree) (hlinks : d.LinkFree) {last : Bool}
    {onLink : Place → List RawText → Except Refusal Target} {here : Place} {rest : List RawText}
    (hhere : d.entryAt here = some .directory) (hrest : ∀ piece ∈ rest, slash ∉ piece.toList ∧ 0 ∉ piece.toList)
    (hfollow : d.follow last onLink here rest = .ok (.free place)) :
    ∃ around name, place = around ++ [name] ∧ IsEntryName name ∧ d.entryAt around = some .directory := by
  rw [follow_eq_ok_iff] at hfollow
  generalize hfree : Target.free place = t at hfollow
  induction hfollow with
  | here => cases hfree
  | stays _ _ ih => exact ih hhere (fun x hx => hrest x (List.mem_cons_of_mem _ hx)) hfree
  | up _ ih => exact ih (h.directory_dropLast hhere) (fun x hx => hrest x (List.mem_cons_of_mem _ hx)) hfree
  | directory _ hentry _ ih => exact ih hentry (fun x hx => hrest x (List.mem_cons_of_mem _ hx)) hfree
  | file => cases hfree
  | @free here piece rest hdown _ _ _ =>
    obtain ⟨hslash, hzero⟩ := hrest piece List.mem_cons_self
    exact ⟨here, piece, Target.free.inj hfree, hdown.isEntryName hslash hzero, hhere⟩
  | link => cases hfree
  | through _ hentry => exact absurd hentry (hlinks _ _)

/-- A tree with something new under a name in a directory, or with another file in place of one. -/
theorem IsTree.put (h : d.IsTree) {around : Place} {name : RawText} {e : Entry} (hname : IsEntryName name)
    (haround : d.entryAt around = some .directory) (hg : d.Grows (d.put (around ++ [name]) e)) :
    (d.put (around ++ [name]) e).IsTree := by
  have hmem : ∀ place ∈ (d.put (around ++ [name]) e).entries.keys, place ∈ d.entries.keys ∨
      place = around ++ [name] := by
    intro place hplace
    rw [Disk.put, Ledger.keys_put] at hplace
    split at hplace
    · exact .inl hplace
    · exact (List.mem_append.mp hplace).imp id List.mem_singleton.mp
  refine ⟨Ledger.nodup_keys_put _ _ h.nodup, fun place hplace => ?_, fun place hplace => ?_, hg.directory h.start⟩
  · rcases hmem place hplace with hold | rfl
    · exact h.named place hold
    · rwa [List.getLastD_eq_getLast?, List.getLast?_concat, Option.getD_some]
  · rcases hmem place hplace with hold | rfl
    · exact hg.directory (h.inside place hold)
    · rw [List.dropLast_concat]
      exact hg.directory haround

/-- A tree without links: what runs are about here. -/
structure IsPlain (d : Disk) : Prop extends IsTree d where
  linkFree : d.LinkFree

/-- Something put at a place. -/
theorem extends_put {e : Entry} (hroot : place ≠ [])
    (h : (d.entryAt place = none ∧ e = .directory) ∨
      (d.IsPlaceOf written place ∧ (∀ e', d.entryAt place = some e' → kindOf e' = .file) ∧ ∃ c, e = .file c)) :
    Extends written d (d.put place e) := by
  refine ⟨rfl, Ledger.keys_prefix_keys_put _ _ _, fun q => ?_⟩
  rw [entryAt_put d place q e hroot]
  split
  · next hq =>
    subst hq
    rcases h with ⟨hnone, rfl⟩ | ⟨ht, hfile, c, rfl⟩
    · exact .inr (.inl ⟨hnone, rfl⟩)
    · exact .inr (.inr ⟨ht, hfile, c, rfl⟩)
  · exact .inl rfl

/-- The pieces of a path hold neither slashes nor zeros. -/
theorem not_mem_of_mem_pieces {p : Path} (hzero : 0 ∉ p.text.toList) :
    ∀ piece ∈ pieces p, slash ∉ piece.toList ∧ 0 ∉ piece.toList := by
  intro piece hpiece
  obtain ⟨cs, hcs, rfl⟩ := List.mem_map.mp hpiece
  rw [RawText.toList_ofList]
  exact ⟨Text.not_mem_of_mem_segmentsOf hcs, fun hc => hzero (Text.mem_of_mem_segmentsOf hcs hc)⟩

namespace IsPlain

/-- A free place that a path leads to is a name in a directory. -/
theorem exists_of_resolve_free (h : d.IsPlain) {last : Bool} {p : Path}
    (hresolve : d.resolve last p = .ok (.free place)) :
    ∃ around name, place = around ++ [name] ∧ IsEntryName name ∧ d.entryAt around = some .directory := by
  have hfollowed := isFollowed_of_resolve hresolve
  rw [hfollowed.resolve_eq] at hresolve
  refine h.exists_of_follow_free h.linkFree ?_ (not_mem_of_mem_pieces hfollowed.zero) hresolve
  rw [startOf]
  split
  · rfl
  · exact h.start

theorem put (h : d.IsPlain) {e : Entry} (hplace : (d.entryAt place).isSome ∨
      ∃ around name, place = around ++ [name] ∧ IsEntryName name ∧ d.entryAt around = some .directory)
      (hroot : place ≠ [])
    (hextends : Extends written d (d.put place e)) : (d.put place e).IsPlain := by
  have hname : ∃ around name, place = around ++ [name] ∧ IsEntryName name ∧ d.entryAt around = some .directory :=
    hplace.elim (fun hsome => h.exists_name ((isSome_entryAt_iff hroot).mp hsome)) id
  obtain ⟨around, name, rfl, hname, haround⟩ := hname
  exact ⟨h.toIsTree.put hname haround hextends.grows, hextends.grows.linkFree h.linkFree⟩

/-- **Making a directory** extends a tree. -/
theorem makeDirectory (h : d.IsPlain) {p : Path} (hmake : d.makeDirectory p = .ok d') :
    Extends written d d' ∧ d'.IsPlain := by
  rw [makeDirectory_eq_map] at hmake
  cases hq : d.madeAt p with
  | error reason => rw [hq] at hmake; cases hmake
  | ok q =>
    rw [hq] at hmake
    cases hmake
    obtain ⟨_, hroot, hnone⟩ := h.linkFree.of_madeAt hq
    have hextends : Extends written d (d.put q .directory) := extends_put hroot (.inl ⟨hnone, rfl⟩)
    exact ⟨hextends, h.put (.inr (h.exists_of_resolve_free (resolve_of_madeAt hq))) hroot hextends⟩

/-- **Writing a file** extends a tree, at the place that the path names. -/
theorem write (h : d.IsPlain) {p : Path} {c : Content} (hwrite : d.write p c = .ok d') (hp : written p) :
    Extends written d d' ∧ d'.IsPlain := by
  rw [write_eq_map] at hwrite
  cases hq : d.writtenAt p with
  | error reason => rw [hq] at hwrite; cases hwrite
  | ok q =>
    rw [hq] at hwrite
    cases hwrite
    obtain ⟨hplace, hroot, hkind⟩ := h.linkFree.of_writtenAt hq
    have hextends : Extends written d (d.put q (.file c)) :=
      extends_put hroot (.inr ⟨⟨p, hp, hplace.symm⟩, hkind, c, rfl⟩)
    refine ⟨hextends, h.put ?_ hroot hextends⟩
    rcases resolve_of_writtenAt hq with hresolve | ⟨c', hresolve⟩
    · exact .inr (h.exists_of_resolve_free hresolve)
    · obtain ⟨_, hthere⟩ : d.Stands true (.entry q (.file c')) := stands_of_resolve hresolve
      exact .inl (by rw [hthere]; rfl)

theorem of_makeDirectory (h : d.IsPlain) {p : Path} (hmake : d.makeDirectory p = .ok d') : d'.IsPlain :=
  have hextends : Extends (fun _ => False) d d' ∧ d'.IsPlain := h.makeDirectory hmake
  hextends.2

theorem of_write (h : d.IsPlain) {p : Path} {c : Content} (hwrite : d.write p c = .ok d') : d'.IsPlain :=
  have hextends : Extends (· = p) d d' ∧ d'.IsPlain := h.write hwrite rfl
  hextends.2

end IsPlain

end InteropBindings.Disk
