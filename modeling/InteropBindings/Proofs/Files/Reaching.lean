import InteropBindings.Proofs.Disk.Links
import InteropBindings.Proofs.Generation

/-!
# What lies below a directory

A search follows links. What there is to be met on its way, however deep, is `Disk.Meets`; a search that may go as deep
as the depth limit meets all of that and nothing else (`LoggedDisk.mem_found_iff`), and no file twice
(`LoggedDisk.pairwise_found`).

The limit is never reached: a directory inside another one lies at a longer place, and a link is followed only to a
place that is new on the way down, of which there are no more than the tree has (`Disk.room`).
-/

namespace InteropBindings

open Disk

/-- Where an entry leads has to be asked. -/
def Kind.IsAsked (kind : Kind) : Prop := kind = .directory ∨ kind = .link

/-- What there is to be met below a directory, given with the directories around it: files, entries that lead nowhere,
and links to one of these directories. Links to others are followed. -/
inductive Disk.Meets (d : Disk) : Ancestor → List Ancestor → Found → Prop
  | file {dir around name} (hentry : (name, .file) ∈ d.kinds dir.place) :
      Meets d dir around (.file (dir.path.join name))
  | askedFile {dir around name kind place} (hentry : (name, kind) ∈ d.kinds dir.place) (hasked : kind.IsAsked)
      (hstatus : d.status (dir.path.join name) = .ok ⟨.file, place⟩) : Meets d dir around (.file (dir.path.join name))
  | broken {dir around name kind reason} (hentry : (name, kind) ∈ d.kinds dir.place) (hasked : kind.IsAsked)
      (hstatus : d.status (dir.path.join name) = .error reason) :
      Meets d dir around (.fault (.brokenEntry (dir.path.join name) reason))
  | loop {dir around name place ancestor} (hentry : (name, .link) ∈ d.kinds dir.place)
      (hstatus : d.status (dir.path.join name) = .ok ⟨.directory, place⟩)
      (hancestor : (dir :: around).find? (·.place == place) = some ancestor) :
      Meets d dir around (.fault (.loop (dir.path.join name) ancestor.path))
  | deeper {dir around name kind place f} (hentry : (name, kind) ∈ d.kinds dir.place) (hasked : kind.IsAsked)
      (hstatus : d.status (dir.path.join name) = .ok ⟨.directory, place⟩)
      (hnew : kind = .link → ∀ a ∈ dir :: around, a.place ≠ place)
      (hbelow : Meets d ⟨dir.path.join name, place⟩ (dir :: around) f) : Meets d dir around f

/-! ## Searches -/

namespace LoggedDisk

variable {s : LoggedDisk} {dir : Ancestor} {around : List Ancestor} {depth : Nat} {f : Found}

/-- What a search of a directory meets, inside others from the inside out. -/
def found (s : LoggedDisk) (depth : Nat) (dir : Ancestor) (around : List Ancestor) : List Found :=
  (StateT.run (search depth (dir :: around) dir.path : StateM LoggedDisk (List Found)) s).1

/-- What a search meets at an entry of a directory. -/
def foundAt (s : LoggedDisk) (depth : Nat) (dir : Ancestor) (around : List Ancestor) (e : RawText × Kind) :
    List Found :=
  (StateT.run (searchEntry (search depth) (dir :: around) (dir.path.join e.1) e.2 : StateM LoggedDisk (List Found)) s).1

theorem run_search (s : LoggedDisk) (depth : Nat) (dir : Ancestor) (around : List Ancestor) :
    StateT.run (search depth (dir :: around) dir.path : StateM LoggedDisk (List Found)) s =
      (s.found depth dir around, s) :=
  Prod.ext rfl (Respects.search (R := (· = ·)) depth (dir :: around) dir.path s).symm

/-- **A search of a directory** is one of each of its entries. -/
theorem found_succ {entries : List (RawText × Kind)} (hlist : s.disk.list dir.path = .ok entries) :
    s.found (depth + 1) dir around = entries.flatMap (s.foundAt depth dir around) := by
  have hentry : ∀ e : RawText × Kind, StateT.run (searchEntry (search depth) (dir :: around) (dir.path.join e.1) e.2 :
      StateM LoggedDisk (List Found)) s = (s.foundAt depth dir around e, s) := fun e =>
    Prod.ext rfl (Respects.searchEntry (R := (· = ·)) (Respects.search depth) (dir :: around)
      (dir.path.join e.1) e.2 s).symm
  have hentries : ∀ entries, StateT.run (searchEntries (search depth) (dir :: around) dir.path entries :
      StateM LoggedDisk (List Found)) s = (entries.flatMap (s.foundAt depth dir around), s) := by
    intro entries
    induction entries with
    | nil => rfl
    | cons e entries ih =>
      rw [searchEntries, run_bind_eq (hentry e), run_bind_eq ih]
      rfl
  rw [found, search, run_bind_eq (run_list s dir.path), hlist]
  exact congrArg Prod.fst (hentries entries)

theorem found_of_list_error {reason : Refusal} (hlist : s.disk.list dir.path = .error reason) :
    s.found (depth + 1) dir around = [.fault (.brokenEntry dir.path reason)] := by
  rw [found, search, run_bind_eq (run_list s dir.path), hlist]
  rfl

/-- What is met at an entry that has to be asked where it leads. -/
theorem foundAt_of_isAsked {name : RawText} {kind : Kind} (hasked : kind.IsAsked) :
    s.foundAt depth dir around (name, kind) = match s.disk.status (dir.path.join name) with
      | .error reason => [.fault (.brokenEntry (dir.path.join name) reason)]
      | .ok ⟨.file, _⟩ => [.file (dir.path.join name)]
      | .ok ⟨.directory, place⟩ =>
        match if kind = .link then (dir :: around).find? (·.place == place) else none with
        | some ancestor => [.fault (.loop (dir.path.join name) ancestor.path)]
        | none => s.found depth ⟨dir.path.join name, place⟩ (dir :: around)
      | .ok _ => [] := by
  rcases hasked with rfl | rfl
  all_goals
    refine (congrArg Prod.fst (run_bind_eq (run_status s (dir.path.join name)))).trans ?_
    cases s.disk.status (dir.path.join name) with
    | error reason => rfl
    | ok status =>
      obtain ⟨kind, place⟩ := status
      cases kind with
      | directory =>
        dsimp only
        split
        all_goals next hancestor =>
          rw [hancestor]
          rfl
      | _ => rfl

/-- At an entry nothing is met but a fault, the path of the entry, or what is met below it. -/
theorem foundAt_cases (s : LoggedDisk) (depth : Nat) (dir : Ancestor) (around : List Ancestor) (e : RawText × Kind) :
    s.foundAt depth dir around e = [] ∨ (∃ fault, s.foundAt depth dir around e = [.fault fault]) ∨
      s.foundAt depth dir around e = [.file (dir.path.join e.1)] ∨
      ∃ place, s.foundAt depth dir around e = s.found depth ⟨dir.path.join e.1, place⟩ (dir :: around) := by
  obtain ⟨name, kind⟩ := e
  by_cases hasked : kind.IsAsked
  · rw [foundAt_of_isAsked hasked]
    cases s.disk.status (dir.path.join name) with
    | error reason => exact .inr (.inl ⟨_, rfl⟩)
    | ok status =>
      obtain ⟨kind, place⟩ := status
      cases kind with
      | file => exact .inr (.inr (.inl rfl))
      | directory =>
        dsimp only
        split
        · exact .inr (.inl ⟨_, rfl⟩)
        · exact .inr (.inr (.inr ⟨place, rfl⟩))
      | _ => exact .inl rfl
  · cases kind with
    | file => exact .inr (.inr (.inl rfl))
    | other => exact .inl rfl
    | directory => exact absurd (.inl rfl) hasked
    | link => exact absurd (.inr rfl) hasked

/-! ### Nothing else is met -/

theorem list_eq (hdir : s.disk.resolve true dir.path = .ok (.entry dir.place .directory)) :
    s.disk.list dir.path = .ok (s.disk.kinds dir.place) := list_eq_ok_iff.mpr ⟨dir.place, hdir, rfl⟩

/-- **What a search meets** is there to be met. -/
theorem meets_of_mem_found (hdir : s.disk.resolve true dir.path = .ok (.entry dir.place .directory))
    (h : f ∈ s.found depth dir around) : s.disk.Meets dir around f := by
  induction depth generalizing dir around with
  | zero => cases h
  | succ depth ih =>
    rw [found_succ (list_eq hdir)] at h
    obtain ⟨⟨name, kind⟩, hentry, hmet⟩ := List.mem_flatMap.mp h
    by_cases hasked : kind.IsAsked
    · rw [foundAt_of_isAsked hasked] at hmet
      split at hmet
      · next reason hstatus =>
        obtain rfl := List.mem_singleton.mp hmet
        exact .broken hentry hasked hstatus
      · next place hstatus =>
        obtain rfl := List.mem_singleton.mp hmet
        exact .askedFile hentry hasked hstatus
      · next place hstatus =>
        split at hmet
        · next ancestor hancestor =>
          obtain rfl := List.mem_singleton.mp hmet
          obtain ⟨rfl, hfirst⟩ := Option.ite_none_right_eq_some.mp hancestor
          exact .loop hentry hstatus hfirst
        · next hnone =>
          refine .deeper hentry hasked hstatus (fun hlink a ha => ?_) (ih (resolve_of_status hstatus rfl) hmet)
          rw [if_pos hlink, List.find?_eq_none] at hnone
          simpa using hnone a ha
      · cases hmet
    · cases kind with
      | file =>
        obtain rfl := List.mem_singleton.mp hmet
        exact .file hentry
      | other => cases hmet
      | directory => exact absurd (.inl rfl) hasked
      | link => exact absurd (.inr rfl) hasked

end LoggedDisk

/-! ## The depth limit -/

namespace Disk

variable {d : Disk} {dir : Ancestor} {around : List Ancestor} {place : Place}

/-- The places of a tree at which none of some directories lies. -/
def unseen (d : Disk) (chain : List Ancestor) : List Place :=
  ([] :: d.entries.keys).filter fun place => !chain.any (·.place == place)

/-- How much deeper a search can go at most: before each link to a place not seen before, down to the deepest place. -/
def room (d : Disk) (dir : Ancestor) (around : List Ancestor) : Nat :=
  (d.unseen (dir :: around)).length * (d.entries.size + 1) + (d.entries.size - dir.place.length)

/-- One directory more. -/
theorem unseen_cons (d : Disk) (a : Ancestor) (chain : List Ancestor) :
    d.unseen (a :: chain) = (d.unseen chain).filter fun place => !(a.place == place) := by
  rw [unseen, unseen, List.filter_filter]
  refine List.filter_congr fun place _ => ?_
  rw [List.any_cons, Bool.not_or]

/-- A place of the tree that is none of those of some directories is one of those not seen. -/
theorem mem_unseen {chain : List Ancestor} (hplace : d.entryAt place = some .directory)
    (hnew : ∀ a ∈ chain, a.place ≠ place) :
    place ∈ d.unseen chain := by
  refine List.mem_filter.mpr ⟨?_, by simpa using hnew⟩
  by_cases hroot : place = []
  · exact hroot ▸ List.mem_cons_self
  · exact List.mem_cons_of_mem _ ((isSome_entryAt_iff hroot).mp (by rw [hplace]; rfl))

/-- There is less room in a directory inside another one. -/
theorem IsTree.room_directory (h : d.IsTree) {name : RawText}
    (hentry : d.entryAt (dir.place ++ [name]) = some .directory)
    (p : Path) : d.room ⟨p, dir.place ++ [name]⟩ (dir :: around) < d.room dir around := by
  have hunseen : (d.unseen (⟨p, dir.place ++ [name]⟩ :: dir :: around)).length ≤ (d.unseen (dir :: around)).length := by
    rw [unseen_cons]
    exact List.length_filter_le _ _
  have hroot : dir.place ++ [name] ≠ [] := by simp
  have hlength := h.length_le ((isSome_entryAt_iff hroot).mp (by rw [hentry]; rfl))
  rw [List.length_append, List.length_singleton] at hlength
  have hmul := Nat.mul_le_mul_right (d.entries.size + 1) hunseen
  rw [room, room, List.length_append, List.length_singleton]
  omega

theorem room_new (hplace : d.entryAt place = some .directory) (hnew : ∀ a ∈ dir :: around, a.place ≠ place) (p : Path) :
    d.room ⟨p, place⟩ (dir :: around) < d.room dir around := by
  have hunseen : (d.unseen (⟨p, place⟩ :: dir :: around)).length < (d.unseen (dir :: around)).length := by
    rw [unseen_cons]
    exact List.length_filter_lt_length_iff_exists.mpr ⟨place, mem_unseen hplace hnew, by simp⟩
  have hmul := Nat.mul_le_mul_right (d.entries.size + 1) (Nat.succ_le_of_lt hunseen)
  rw [Nat.succ_mul] at hmul
  rw [room, room]
  omega

/-- **The depth limit** leaves more than enough room. -/
theorem room_lt_depthLimit (d : Disk) (dir : Ancestor) : d.room dir [] < d.depthLimit := by
  have hunseen : (d.unseen [dir]).length ≤ d.entries.size + 1 := by
    have hlength := List.length_filter_le (fun place => !([dir].any (·.place == place))) ([] :: d.entries.keys)
    rwa [List.length_cons, Ledger.length_keys] at hlength
  have hmul := Nat.mul_le_mul_right (d.entries.size + 1) hunseen
  have hlimit : d.depthLimit = (d.entries.size + 1) * (d.entries.size + 1) + (d.entries.size + 1) := by
    rw [depthLimit, Nat.mul_succ]
  rw [room, hlimit]
  omega

end Disk

/-! ## All that is there -/

namespace LoggedDisk

variable {s : LoggedDisk} {dir : Ancestor} {around : List Ancestor} {depth : Nat} {f : Found}

/-- What is met at an entry, one level further down, is met in the directory. -/
theorem mem_found_of_entry (hdir : s.disk.resolve true dir.path = .ok (.entry dir.place .directory))
    {e : RawText × Kind} (hentry : e ∈ s.disk.kinds dir.place) {room : Nat} (hroom : room < depth)
    (hmet : ∀ left, room ≤ left → f ∈ s.foundAt left dir around e) : f ∈ s.found depth dir around := by
  obtain ⟨left, rfl⟩ := Nat.exists_eq_succ_of_ne_zero (Nat.ne_of_gt (Nat.zero_lt_of_lt hroom))
  rw [found_succ (list_eq hdir)]
  exact List.mem_flatMap_of_mem hentry (hmet left (Nat.le_of_lt_succ hroom))

/-- There is less room below a directory that is searched next. -/
theorem room_lt_of_status (htree : s.disk.IsTree)
    (hdir : s.disk.resolve true dir.path = .ok (.entry dir.place .directory))
    {name : RawText} {kind : Kind} {place : Place} (hentry : (name, kind) ∈ s.disk.kinds dir.place)
    (hasked : kind.IsAsked) (hresolve : s.disk.resolve true (dir.path.join name) = .ok (.entry place .directory))
    (hnew : kind = .link → ∀ a ∈ dir :: around, a.place ≠ place) :
    s.disk.room ⟨dir.path.join name, place⟩ (dir :: around) < s.disk.room dir around := by
  rcases hasked with rfl | rfl
  · obtain ⟨e, he, hkind⟩ := (mem_kinds_iff_exists htree.nodup).mp hentry
    cases e with
    | directory =>
      obtain ⟨rfl, _⟩ := htree.place_of_resolve_join hdir he hresolve
      exact htree.room_directory he _
    | _ => cases hkind
  · exact room_new (htree.entryAt_of_resolve hresolve) (hnew rfl) _

/-- **What is there to be met** is met by a search with room enough. -/
theorem mem_found_of_meets (htree : s.disk.IsTree)
    (hdir : s.disk.resolve true dir.path = .ok (.entry dir.place .directory))
    (h : s.disk.Meets dir around f) (hroom : s.disk.room dir around < depth) : f ∈ s.found depth dir around := by
  -- Every directory on the way leaves less room, so the depth that is left is enough for what is below it.
  induction h generalizing depth with
  | file hentry => exact mem_found_of_entry hdir hentry hroom fun _ _ => List.mem_cons_self
  | askedFile hentry hasked hstatus =>
    refine mem_found_of_entry hdir hentry hroom fun _ _ => ?_
    rw [foundAt_of_isAsked hasked, hstatus]
    exact List.mem_cons_self
  | broken hentry hasked hstatus =>
    refine mem_found_of_entry hdir hentry hroom fun _ _ => ?_
    rw [foundAt_of_isAsked hasked, hstatus]
    exact List.mem_cons_self
  | loop hentry hstatus hancestor =>
    refine mem_found_of_entry hdir hentry hroom fun _ _ => ?_
    rw [foundAt_of_isAsked (.inr rfl), hstatus]
    dsimp only
    rw [if_pos rfl, hancestor]
    exact List.mem_cons_self
  | @deeper dir around name kind place f hentry hasked hstatus hnew _ ih =>
    have hresolve := resolve_of_status hstatus rfl
    have hless := room_lt_of_status htree hdir hentry hasked hresolve hnew
    have hnone : (if kind = .link then (dir :: around).find? (·.place == place) else none) = none := by
      split
      · next hlink => exact List.find?_eq_none.mpr fun a ha => by simpa using hnew hlink a ha
      · rfl
    refine mem_found_of_entry hdir hentry hroom fun left hleft => ?_
    rw [foundAt_of_isAsked hasked, hstatus]
    dsimp only
    rw [hnone]
    exact ih hresolve (Nat.lt_of_lt_of_le hless hleft)

/-- **A search down to the depth limit** meets exactly what is there to be met. -/
theorem mem_found_iff (htree : s.disk.IsTree) (dir : Ancestor)
    (hdir : s.disk.resolve true dir.path = .ok (.entry dir.place .directory)) :
    f ∈ s.found s.disk.depthLimit dir [] ↔ s.disk.Meets dir [] f :=
  ⟨meets_of_mem_found hdir, fun h => mem_found_of_meets htree hdir h (room_lt_depthLimit s.disk dir)⟩

/-! ### No file twice -/

/-- Two things that are met are not files with the same components. -/
def Apart (f g : Found) : Prop := ∀ p q, f = .file p → g = .file q → p.components ≠ q.components

theorem components_join_of_mem_list (htree : s.disk.IsTree) {entries : List (RawText × Kind)} {e : RawText × Kind}
    (hlist : s.disk.list dir.path = .ok entries) (he : e ∈ entries) :
    (dir.path.join e.1).components = dir.path.components ++ [.normal e.1] := by
  obtain ⟨place, _, rfl⟩ := list_eq_ok_iff.mp hlist
  obtain ⟨entry, hentry, _⟩ := (mem_kinds_iff_exists htree.nodup).mp he
  exact (htree.of_entryAt hentry).1.1.components_join dir.path

/-- The path of a file that is met at an entry goes on from that of the entry, if that holds one level further down. -/
theorem prefix_of_mem_foundAt {e : RawText × Kind} {p : Path}
    (hfound : ∀ dir around, .file p ∈ s.found depth dir around → dir.path.components <+: p.components)
    (h : .file p ∈ s.foundAt depth dir around e) : (dir.path.join e.1).components <+: p.components := by
  rcases s.foundAt_cases depth dir around e with hnil | ⟨fault, hfault⟩ | hfile | ⟨place, hbelow⟩
  · rw [hnil] at h
    cases h
  · rw [hfault] at h
    cases List.mem_singleton.mp h
  · rw [hfile] at h
    obtain rfl := Found.file.inj (List.mem_singleton.mp h)
    exact List.prefix_rfl
  · rw [hbelow] at h
    exact hfound ⟨dir.path.join e.1, place⟩ (dir :: around) h

/-- The path of a file that is met goes on from that of the directory. -/
theorem prefix_of_mem_found (htree : s.disk.IsTree) {p : Path} (h : .file p ∈ s.found depth dir around) :
    dir.path.components <+: p.components := by
  induction depth generalizing dir around with
  | zero => cases h
  | succ depth ih =>
    cases hlist : s.disk.list dir.path with
    | error reason =>
      rw [found_of_list_error hlist] at h
      cases List.mem_singleton.mp h
    | ok entries =>
      rw [found_succ hlist] at h
      obtain ⟨e, he, hmet⟩ := List.mem_flatMap.mp h
      have hentry := prefix_of_mem_foundAt (fun _ _ => ih) hmet
      rw [components_join_of_mem_list htree hlist he] at hentry
      exact (List.prefix_append _ _).trans hentry

/-- **No file is met twice.** -/
theorem pairwise_found (htree : s.disk.IsTree) : (s.found depth dir around).Pairwise Apart := by
  induction depth generalizing dir around with
  | zero => exact .nil
  | succ depth ih =>
    cases hlist : s.disk.list dir.path with
    | error reason =>
      rw [found_of_list_error hlist]
      exact List.pairwise_singleton _ _
    | ok entries =>
      have hnames : entries.Pairwise fun e e' => e.1 ≠ e'.1 := by
        obtain ⟨place, _, rfl⟩ := list_eq_ok_iff.mp hlist
        exact pairwise_kinds htree.nodup place
      rw [found_succ hlist, List.pairwise_flatMap]
      refine ⟨fun e _ => ?_, hnames.imp_of_mem fun {e e'} he he' hne f hf g hg p q hp hq hsame => hne ?_⟩
      · rcases s.foundAt_cases depth dir around e with h | ⟨_, h⟩ | h | ⟨_, h⟩
        · exact h ▸ .nil
        · exact h ▸ List.pairwise_singleton _ _
        · exact h ▸ List.pairwise_singleton _ _
        · exact h ▸ ih
      · -- Both paths start with the components of the directory and the name of their entry.
        subst hp hq
        have hentry := prefix_of_mem_foundAt (fun _ _ => prefix_of_mem_found htree) hf
        have hentry' := prefix_of_mem_foundAt (fun _ _ => prefix_of_mem_found htree) hg
        rw [components_join_of_mem_list htree hlist he, hsame] at hentry
        rw [components_join_of_mem_list htree hlist he'] at hentry'
        have hstarts := List.prefix_of_prefix_length_le hentry hentry' (by simp)
        have hlast := List.append_cancel_left (hstarts.eq_of_length (by simp))
        exact Component.normal.inj (List.cons.inj hlast).1

end LoggedDisk

end InteropBindings
