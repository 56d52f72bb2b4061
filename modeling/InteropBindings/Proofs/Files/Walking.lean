import InteropBindings.Files.Discovery
import InteropBindings.Proofs.Files.Reaching

/-!
# What a search meets

In a plain tree a search is a walk over the entries of the directories, and a path that gets too long is all that can
stop it (`LoggedDisk.found_eq_walk`, `Disk.faultless_walk_iff`); it meets all files at any depth (`Disk.mem_walk_iff`).
When binding files and directories come new, the walk meets the same declaration files in the same order, and they read
the same (`Disk.Extends.filterMap_walk`, `Disk.Extends.read_of_mem_walk`).
-/

namespace InteropBindings

open Disk

variable {s : LoggedDisk} {platform : PlatformFilter} {dir : Path} {place : Place} {depth : Nat}

/-! ## Walks -/

/-- What is met at an entry of a directory. -/
def walkEntry (deeper : Place → Path → List Found) (place : Place) (dir : Path) (e : RawText × Kind) : List Found :=
  match e.2 with
  | .file => [.file (dir.join e.1)]
  | .directory =>
    if 4096 ≤ (dir.join e.1).text.size then [.fault (.brokenEntry (dir.join e.1) .nameTooLong)]
    else deeper (place ++ [e.1]) (dir.join e.1)
  | _ => []

/-- What is met below a directory in a tree without links, at most at a given depth. -/
def Disk.walk (d : Disk) : (depth : Nat) → Place → Path → List Found
  | 0, _, _ => []
  | depth + 1, place, dir => (d.kinds place).flatMap (walkEntry (d.walk depth) place dir)

/-- What a name followed from a path to a directory leads to, as a status. -/
theorem Disk.IsPlain.status_join {d : Disk} (h : d.IsPlain) (hdir : d.resolve true dir = .ok (.entry place .directory))
    {name : RawText} (hentry : d.entryAt (place ++ [name]) = some .directory) : d.status (dir.join name) =
      if 4096 ≤ (dir.join name).text.size then .error .nameTooLong else .ok ⟨.directory, place ++ [name]⟩ := by
  rw [status, find, h.linkFree.resolve_join hdir (h.of_entryAt hentry).1, hentry]
  by_cases hlong : 4096 ≤ (dir.join name).text.size
  · rw [if_pos hlong, if_pos hlong]
    rfl
  · rw [if_neg hlong, if_neg hlong]
    rfl

/-- **A search** in a plain tree is a walk. -/
theorem LoggedDisk.found_eq_walk {around : List Ancestor} (h : s.disk.IsPlain)
    (hdir : s.disk.resolve true dir = .ok (.entry place .directory)) :
    s.found depth ⟨dir, place⟩ around = s.disk.walk depth place dir := by
  induction depth generalizing around place dir with
  | zero => rfl
  | succ depth ih =>
    have hlist : s.disk.list (⟨dir, place⟩ : Ancestor).path = .ok (s.disk.kinds place) := list_eq hdir
    rw [found_succ hlist, walk]
    refine List.flatMap_congr fun ⟨name, kind⟩ he => ?_
    obtain ⟨entry, hentry, rfl⟩ := (mem_kinds_iff_exists h.nodup).mp he
    cases entry with
    | file c => rfl
    | link target => exact absurd hentry (h.linkFree _ target)
    | directory =>
      rw [kindOf, foundAt_of_isAsked (.inl rfl), h.status_join hdir hentry, walkEntry]
      by_cases hlong : 4096 ≤ (dir.join name).text.size
      · simp only [if_pos hlong]
      · simp only [if_neg hlong]
        refine ih ((h.linkFree.resolve_join hdir (h.of_entryAt hentry).1).trans ?_)
        rw [if_neg hlong, hentry]

/-! ## Declaration files among what is met -/

/-- A declaration file that counts. -/
def Found.kept? (platform : PlatformFilter) : Found → Option Path
  | .file path => if isDeclarationFile path && !platform.isPlatform path then some path else none
  | .fault _ => none

/-- Nothing was met that stops a search. -/
def IsFaultless (found : List Found) : Prop := ∀ fault, Found.fault fault ∉ found

/-- The declaration files are known when nothing stops the search. -/
theorem declarationFiles_eq_ok_iff {found : List Found} {paths : List Path} :
    declarationFiles platform found = .ok paths ↔ IsFaultless found ∧
      paths = found.filterMap (Found.kept? platform) := by
  induction found generalizing paths with
  | nil => simp [declarationFiles, IsFaultless, eq_comm]
  | cons f found ih =>
    cases f with
    | fault fault =>
      refine iff_of_false (fun h => nomatch h) fun h => h.1 fault List.mem_cons_self
    | file path =>
      have hfaultless : IsFaultless (.file path :: found) ↔ IsFaultless found := by simp [IsFaultless]
      rw [declarationFiles, hfaultless, List.filterMap_cons, Found.kept?]
      split
      · cases hrest : declarationFiles platform found with
        | error fault =>
          refine iff_of_false (fun h => nomatch h) fun h => ?_
          rw [ih.mpr ⟨h.1, rfl⟩] at hrest
          cases hrest
        | ok rest =>
          obtain ⟨hfound, rfl⟩ := ih.mp hrest
          simp [Except.map, hfound, eq_comm]
      · exact ih

/-- The first fault is what stops a search. -/
theorem exists_declarationFiles_eq_error {found : List Found} (h : ¬ IsFaultless found) :
    ∃ fault, Found.fault fault ∈ found ∧ declarationFiles platform found = .error fault := by
  induction found with
  | nil => exact absurd (fun _ hmem => nomatch hmem) h
  | cons f found ih =>
    cases f with
    | fault fault => exact ⟨fault, List.mem_cons_self, rfl⟩
    | file path =>
      have hrest : ¬ IsFaultless found := by simpa [IsFaultless] using h
      obtain ⟨fault, hmem, herror⟩ := ih hrest
      refine ⟨fault, List.mem_cons_of_mem _ hmem, ?_⟩
      rw [declarationFiles, herror]
      split <;> rfl

/-! ## Paths that get too long -/

/-- Every directory below a path has a path that can be followed. -/
def Disk.Walkable (d : Disk) (place : Place) (dir : Path) : Prop :=
  ∀ names, names ≠ [] → d.entryAt (place ++ names) = some .directory → (names.foldl Path.join dir).text.size < 4096

instance (d : Disk) (place : Place) (dir : Path) : Decidable (d.Walkable place dir) :=
  decidable_of_iff (∀ key ∈ d.entries.keys, place <+: key → place ≠ key → d.entryAt key = some .directory →
      ((key.drop place.length).foldl Path.join dir).text.size < 4096) (by
    constructor
    · intro h names hne hentry
      have hkey := (isSome_entryAt_iff (List.append_ne_nil_of_right_ne_nil place hne)).mp
        (Option.isSome_of_eq_some hentry)
      have hshort := h _ hkey (List.prefix_append place names) (by simp [hne]) hentry
      rwa [List.drop_left] at hshort
    · rintro h key _ ⟨names, rfl⟩ hne hentry
      rw [List.drop_left]
      exact h names (by rintro rfl; simp at hne) hentry)

/-- No place below a directory lies deeper than a walk goes. -/
def Disk.IsDeepest (d : Disk) (depth : Nat) (place : Place) : Prop :=
  ∀ key ∈ d.entries.keys, place <+: key → key.length < place.length + depth

namespace Disk

variable {d d' : Disk}

theorem IsDeepest.entryAt_eq_none (h : d.IsDeepest 0 place) (name : RawText) : d.entryAt (place ++ [name]) = none := by
  rw [← Option.not_isSome_iff_eq_none, isSome_entryAt_iff (by simp)]
  intro hmem
  have hlength := h _ hmem (List.prefix_append place [name])
  rw [List.length_append, List.length_singleton] at hlength
  omega

/-- One level further down there is one level less. -/
theorem IsDeepest.below (h : d.IsDeepest (depth + 1) place) (name : RawText) : d.IsDeepest depth (place ++ [name]) := by
  intro key hkey hprefix
  have hlength := h key hkey ((List.prefix_append place [name]).trans hprefix)
  rw [List.length_append, List.length_singleton]
  omega

/-- The depth limit is deep enough. -/
theorem IsTree.isDeepest (h : d.IsTree) (place : Place) : d.IsDeepest d.depthLimit place := by
  intro key hkey _
  have hlength := h.length_le hkey
  have hlimit : d.entries.size < d.depthLimit := by
    rw [depthLimit]
    exact Nat.lt_of_lt_of_le (Nat.lt_succ_self _) (Nat.le_mul_of_pos_right _ (Nat.succ_pos _))
  omega

/-- What stops a walk is a directory with a path that is too long. -/
theorem IsTree.exists_of_fault_mem_walk (h : d.IsTree) {fault : Fault}
    (hfault : Found.fault fault ∈ d.walk depth place dir) :
    ∃ names, names ≠ [] ∧ d.entryAt (place ++ names) = some .directory ∧ 4096 ≤ (names.foldl Path.join dir).text.size ∧
      fault = .brokenEntry (names.foldl Path.join dir) .nameTooLong := by
  induction depth generalizing place dir with
  | zero => cases hfault
  | succ depth ih =>
    obtain ⟨⟨name, kind⟩, he, hmet⟩ := List.mem_flatMap.mp hfault
    obtain ⟨entry, hentry, hkind⟩ := (mem_kinds_iff_exists h.nodup).mp he
    cases entry with
    | file c =>
      subst hkind
      simp [walkEntry, kindOf] at hmet
    | link target =>
      subst hkind
      simp [walkEntry, kindOf] at hmet
    | directory =>
      subst hkind
      rw [walkEntry] at hmet
      dsimp only [kindOf] at hmet
      split at hmet
      · next hlong =>
        obtain rfl := Found.fault.inj (List.mem_singleton.mp hmet)
        exact ⟨[name], List.cons_ne_nil _ _, hentry, hlong, rfl⟩
      · obtain ⟨names, hne, hbelow, hlong, rfl⟩ := ih hmet
        rw [List.append_assoc, List.singleton_append] at hbelow
        exact ⟨name :: names, List.cons_ne_nil _ _, hbelow, hlong, rfl⟩

/-- **A walk** is stopped only by a path that gets too long. -/
theorem faultless_walk_iff (h : d.IsTree) (hdeep : d.IsDeepest depth place) :
    IsFaultless (d.walk depth place dir) ↔ d.Walkable place dir := by
  constructor
  · intro hfaultless names hne hentry
    induction names generalizing depth place dir with
    | nil => exact absurd rfl hne
    | cons name names ih =>
      have hfirst := h.entryAt_first hentry
      have hdirectory : d.entryAt (place ++ [name]) = some .directory := hfirst.elim And.right fun hway => hway.2.1
      cases depth with
      | zero =>
        rw [hdeep.entryAt_eq_none name] at hdirectory
        cases hdirectory
      | succ depth =>
        have hmem : (name, Kind.directory) ∈ d.kinds place := (mem_kinds_iff_exists h.nodup).mpr ⟨_, hdirectory, rfl⟩
        have hfaultless' : IsFaultless (walkEntry (d.walk depth) place dir (name, .directory)) :=
          fun fault hfault => hfaultless fault (List.mem_flatMap_of_mem hmem hfault)
        rw [walkEntry] at hfaultless'
        dsimp only at hfaultless'
        split at hfaultless'
        · exact absurd List.mem_cons_self (hfaultless' _)
        · next hshort =>
          obtain ⟨rfl, _⟩ | ⟨hrest, _, hentry⟩ := hfirst
          · exact Nat.not_le.mp hshort
          · exact ih (hdeep.below name) hfaultless' hrest hentry
  · intro hwalkable fault hmem
    obtain ⟨names, hne, hentry, hlong, _⟩ := h.exists_of_fault_mem_walk hmem
    exact absurd hlong (Nat.not_le.mpr (hwalkable names hne hentry))

/-! ## Files that are met -/

theorem Walkable.below (h : d.Walkable place dir) (name : RawText) : d.Walkable (place ++ [name]) (dir.join name) := by
  intro names _ hentry
  rw [List.append_assoc, List.singleton_append] at hentry
  exact h (name :: names) (List.cons_ne_nil _ _) hentry

theorem Walkable.join_short (h : d.Walkable place dir) {name : RawText}
    (hentry : d.entryAt (place ++ [name]) = some .directory) :
    ¬ 4096 ≤ (dir.join name).text.size := Nat.not_le.mpr (h [name] (List.cons_ne_nil _ _) hentry)

/-- **The files that a walk meets** are those at any depth below its directory, when no path gets too long on the way.
-/
theorem mem_walk_iff (h : d.IsTree) (hdeep : d.IsDeepest depth place) (hwalkable : d.Walkable place dir) {p : Path} :
    Found.file p ∈ d.walk depth place dir ↔
      ∃ names c, names ≠ [] ∧ d.entryAt (place ++ names) = some (.file c) ∧ p = names.foldl Path.join dir := by
  induction depth generalizing place dir with
  | zero =>
    -- Nothing lies this deep.
    refine iff_of_false (fun hmem => nomatch hmem) ?_
    rintro ⟨names, c, hne, hentry, _⟩
    obtain ⟨name, rest, rfl⟩ := List.exists_cons_of_ne_nil hne
    have hnothing := hdeep.entryAt_eq_none name
    obtain ⟨_, hfirst⟩ | ⟨_, hfirst, _⟩ := h.entryAt_first hentry
    · cases hnothing.symm.trans hfirst
    · cases hnothing.symm.trans hfirst
  | succ depth ih =>
    rw [walk, List.mem_flatMap]
    constructor
    · rintro ⟨⟨name, kind⟩, he, hmet⟩
      obtain ⟨e, hentry, rfl⟩ := (mem_kinds_iff_exists h.nodup).mp he
      cases e with
      | link target => simp [walkEntry, kindOf] at hmet
      | file c =>
        obtain rfl : p = dir.join name := by simpa [walkEntry, kindOf] using hmet
        exact ⟨[name], c, List.cons_ne_nil _ _, hentry, rfl⟩
      | directory =>
        simp only [walkEntry, kindOf] at hmet
        rw [if_neg (hwalkable.join_short hentry), ih (hdeep.below name) (hwalkable.below name)] at hmet
        obtain ⟨names, c, _, hfile, rfl⟩ := hmet
        rw [List.append_assoc, List.singleton_append] at hfile
        exact ⟨name :: names, c, List.cons_ne_nil _ _, hfile, rfl⟩
    · rintro ⟨names, c, hne, hentry, rfl⟩
      obtain ⟨name, rest, rfl⟩ := List.exists_cons_of_ne_nil hne
      obtain ⟨rfl, hfile⟩ | ⟨hrest, hdirectory, hentry⟩ := h.entryAt_first hentry
      · exact ⟨(name, .file), (mem_kinds_iff_exists h.nodup).mpr ⟨_, hfile, rfl⟩, by simp [walkEntry]⟩
      · refine ⟨(name, .directory), (mem_kinds_iff_exists h.nodup).mpr ⟨_, hdirectory, rfl⟩, ?_⟩
        simp only [walkEntry]
        rw [if_neg (hwalkable.join_short hdirectory), ih (hdeep.below name) (hwalkable.below name)]
        exact ⟨rest, c, hrest, hentry, rfl⟩

/-- **A file below a directory** is reached through its names, unless its own path is too long. -/
theorem IsPlain.resolve_foldl_join (h : d.IsPlain) (hdir : d.resolve true dir = .ok (.entry place .directory))
    (hwalkable : d.Walkable place dir) {names : List RawText} (hne : names ≠ []) {c : Content}
    (hentry : d.entryAt (place ++ names) = some (.file c)) : d.resolve true (names.foldl Path.join dir) =
      if 4096 ≤ (names.foldl Path.join dir).text.size then .error .nameTooLong
      else .ok (.entry (place ++ names) (.file c)) := by
  induction names generalizing place dir with
  | nil => exact absurd rfl hne
  | cons name rest ih =>
    rw [List.foldl_cons]
    obtain ⟨rfl, hfile⟩ | ⟨hrest, hdirectory, hentry⟩ := h.entryAt_first hentry
    · rw [List.foldl_nil, h.linkFree.resolve_join hdir (h.of_entryAt hfile).1, hfile]
    · rw [List.append_cons]
      refine ih ?_ (hwalkable.below name) hrest hentry
      rw [h.linkFree.resolve_join hdir (h.of_entryAt hdirectory).1, if_neg (hwalkable.join_short hdirectory),
        hdirectory]

/-! ## Extended trees -/

/-- A path whose text ends as that of a binding file. -/
def IsBindingPath (p : Path) : Prop := p.text.endsWith ".dart" = true

/-- A name under which a binding file stands is none of a declaration file. -/
theorem not_isDeclarationFile_of_isPlaceOf {name : RawText} (h : d.IsPlaceOf IsBindingPath (place ++ [name])) :
    name.string?.any (Text.endsWith ".d.ts") = false := by
  obtain ⟨p, hp, hplace⟩ := h
  obtain ⟨stem, htext⟩ := RawText.endsWith_iff.mp hp
  obtain ⟨around, rest, hcomponents⟩ := Path.exists_of_text_append htext (by decide) (by decide)
  rw [placeOf, hcomponents, List.foldl_append] at hplace
  obtain ⟨-, hname⟩ := List.append_inj' hplace rfl
  cases hname
  rw [Bool.eq_false_iff]
  intro hend
  cases hs : (rest ++ RawText.ofString ".dart").string? with
  | none =>
    rw [hs] at hend
    cases hend
  | some s =>
  rw [hs, Option.any_some, ← RawText.endsWith_ofString, ← RawText.string?_eq_some_iff.mp hs,
    RawText.endsWith_iff] at hend
  -- The last letters of the two endings differ.
  obtain ⟨front, hfront⟩ := hend
  have hlast := congrArg (fun a : RawText => a.toList.getLast?) hfront
  rw [RawText.toList_append, RawText.toList_append, List.getLast?_append, List.getLast?_append] at hlast
  exact absurd (Option.some.inj hlast) (by decide)

/-- Whether a name followed from a path names a declaration file. -/
theorem isDeclarationFile_join {name : RawText} (h : Path.IsName name) :
    isDeclarationFile (dir.join name) = name.string?.any (Text.endsWith ".d.ts") := by
  rw [isDeclarationFile, Path.fileName_eq_some_iff.mpr ⟨_, h.components_join dir⟩, Option.bind_some]

/-- A new entry of a directory brings no declaration file, if no new directory does. -/
theorem filterMap_walkEntry_new (ht : d.IsTree) (ht' : d'.IsTree) {deeper : Place → Path → List Found}
    {e : RawText × Kind} (hdeeper : ∀ place dir, (∀ name, d.entryAt (place ++ [name]) = none) →
      (deeper place dir).filterMap (Found.kept? platform) = [])
    (he : e ∈ d'.kinds place) (hnone : d.entryAt (place ++ [e.1]) = none)
    (hnew : e.2 = .directory ∨ (e.2 = .file ∧ d.IsPlaceOf IsBindingPath (place ++ [e.1]))) :
    (walkEntry deeper place dir e).filterMap (Found.kept? platform) = [] := by
  obtain ⟨name, kind⟩ := e
  rcases hnew with rfl | ⟨rfl, hplace⟩
  · rw [walkEntry]
    dsimp only
    split
    · rfl
    · refine hdeeper _ _ fun name' => ?_
      cases hentry : d.entryAt (place ++ [name] ++ [name']) with
      | none => rfl
      | some e =>
        have hdirectory := (ht.of_entryAt hentry).2
        rw [hnone] at hdirectory
        cases hdirectory
  · obtain ⟨e, he', _⟩ := (mem_kinds_iff_exists ht'.nodup).mp he
    have hname := (ht'.of_entryAt he').1.1
    simp [walkEntry, Found.kept?, isDeclarationFile_join hname, not_isDeclarationFile_of_isPlaceOf hplace]

namespace Extends

variable (h : Extends IsBindingPath d d') (ht : d.IsTree) (ht' : d'.IsTree)

include h ht ht'

/-- Below a directory in which there was nothing there is no declaration file. -/
theorem filterMap_walk_new (hnone : ∀ name, d.entryAt (place ++ [name]) = none) :
    (d'.walk depth place dir).filterMap (Found.kept? platform) = [] := by
  induction depth generalizing place dir with
  | zero => rfl
  | succ depth ih =>
    obtain ⟨new, hkinds, hnew⟩ := h.kinds ht ht' place
    have hold : d.kinds place = [] := by
      rw [List.eq_nil_iff_forall_not_mem]
      rintro ⟨name, kind⟩ he
      rw [mem_kinds_iff ht.nodup, hnone name] at he
      cases he
    rw [walk, List.filterMap_flatMap, List.flatMap_eq_nil_iff]
    intro e he
    have he' : e ∈ new := by rwa [hkinds, hold, List.nil_append] at he
    obtain ⟨hnone', hnew'⟩ := hnew e he'
    exact filterMap_walkEntry_new ht ht' (fun _ _ => ih) he hnone' hnew'

/-- **A walk through an extended tree** meets the same declaration files in the same order. -/
theorem filterMap_walk {depth' : Nat} (hdepth : depth ≤ depth') (hdeep : d.IsDeepest depth place) :
    (d'.walk depth' place dir).filterMap (Found.kept? platform) =
      (d.walk depth place dir).filterMap (Found.kept? platform) := by
  induction depth generalizing depth' place dir with
  | zero => exact h.filterMap_walk_new ht ht' hdeep.entryAt_eq_none
  | succ depth ih =>
    obtain ⟨depth', rfl⟩ :=
      Nat.exists_eq_succ_of_ne_zero (Nat.ne_of_gt (Nat.lt_of_lt_of_le (Nat.succ_pos depth) hdepth))
    obtain ⟨new, hkinds, hnew⟩ := h.kinds ht ht' place
    have hnothing : new.flatMap (fun e => (walkEntry (d'.walk depth') place dir e).filterMap (Found.kept? platform)) =
        [] := by
      rw [List.flatMap_eq_nil_iff]
      intro e he
      obtain ⟨hnone, hnew'⟩ := hnew e he
      have he' : e ∈ d'.kinds place := hkinds ▸ List.mem_append_right _ he
      exact filterMap_walkEntry_new ht ht' (fun _ _ => h.filterMap_walk_new ht ht') he' hnone hnew'
    rw [walk, walk, List.filterMap_flatMap, List.filterMap_flatMap, hkinds, List.flatMap_append,
      hnothing, List.append_nil]
    refine List.flatMap_congr fun e _ => ?_
    cases hkind : e.2 with
    | directory =>
      simp only [walkEntry, hkind]
      split
      · rfl
      · exact ih (Nat.le_of_succ_le_succ hdepth) (hdeep.below e.1)
    | _ => simp only [walkEntry, hkind]

end Extends

/-- **A declaration file** that a walk meets reads the same in an extended tree. -/
theorem Extends.read_of_mem_walk (h : Extends IsBindingPath d d') (hplain : d.IsPlain)
    (hdir : d.resolve true dir = .ok (.entry place .directory)) {p : Path} (hp : Found.file p ∈ d.walk depth place dir)
    (hdeclares : isDeclarationFile p = true) : d'.read p = d.read p := by
  induction depth generalizing place dir with
  | zero => cases hp
  | succ depth ih =>
    obtain ⟨⟨name, kind⟩, he, hfound⟩ := List.mem_flatMap.mp hp
    obtain ⟨e, hentry, rfl⟩ := (mem_kinds_iff_exists hplain.nodup).mp he
    have hname := (hplain.of_entryAt hentry).1
    cases e with
    | link target => exact absurd hentry (hplain.linkFree _ target)
    | file c =>
      obtain rfl : p = dir.join name := by simpa [walkEntry, kindOf] using hfound
      rw [isDeclarationFile_join hname.1] at hdeclares
      have hentry' : d'.entryAt (place ++ [name]) = some (.file c) := by
        refine h.entryAt_file (fun hplace => ?_) hentry
        rw [not_isDeclarationFile_of_isPlaceOf hplace] at hdeclares
        cases hdeclares
      have hdir' := hplain.linkFree.resolve_directory h.grows hdir
      have hsame : d'.resolve true (dir.join name) = d.resolve true (dir.join name) := by
        rw [hplain.linkFree.resolve_join hdir hname, (h.grows.linkFree hplain.linkFree).resolve_join hdir' hname,
          hentry, hentry']
      rw [read, read, find, find, hsame]
    | directory =>
      simp only [walkEntry, kindOf] at hfound
      split at hfound
      · simp at hfound
      · next hshort =>
        refine ih ?_ hfound
        rw [hplain.linkFree.resolve_join hdir hname, if_neg hshort, hentry]

/-- A walk through an extended tree may go deeper. -/
theorem Extends.depthLimit_le {written : Path → Prop} (h : Extends written d d') : d.depthLimit ≤ d'.depthLimit := by
  have hsize : d.entries.size ≤ d'.entries.size := by
    rw [← Ledger.length_keys, ← Ledger.length_keys]
    exact h.keys.length_le
  exact Nat.mul_le_mul (Nat.succ_le_succ hsize) (Nat.succ_le_succ (Nat.succ_le_succ hsize))

end Disk

end InteropBindings
