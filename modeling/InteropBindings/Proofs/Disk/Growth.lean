import InteropBindings.Proofs.Disk.Following

/-!
# Trees that grow

Making directories and writing files takes nothing away: directories and links stay, and a file stays a file, whatever
it holds then (`Disk.Grows`).

- a path that leads to a place where a file can stand still leads there in a tree that has grown, once there is a file
  (`Disk.Grows.resolve`);
- so a written file is read back under the path that it was written to (`Disk.exists_of_write`), and no directory that
  is made changes a file (`Disk.keepsFiles_of_makeDirectory`).
-/

namespace InteropBindings

/-! ## Entries -/

/-- What can become of an entry: the content of a file may change. -/
inductive Entry.Becomes : Entry → Entry → Prop
  | same (e : Entry) : Becomes e e
  | file (c c' : Content) : Becomes (.file c) (.file c')

namespace Entry.Becomes

variable {e e' e'' : Entry}

theorem trans (h : Becomes e e') (h' : Becomes e' e'') : Becomes e e'' := by
  cases h with
  | same => exact h'
  | file c c' =>
    cases h' with
    | same => exact .file ..
    | file => exact .file ..

end Entry.Becomes

/-! ## Targets -/

/-- A file can be written at a target, which is at a place. -/
def Target.Takes (place : Place) : Target → Prop
  | .free q | .entry q (.file _) => q = place
  | .entry _ _ => False

namespace Disk

variable {d d' d'' : Disk}

/-- A tree in which there is all that is in another one, and no further link. -/
structure Grows (d d' : Disk) : Prop where
  workingDirectory : d'.workingDirectory = d.workingDirectory
  becomes : ∀ place entry, d.entryAt place = some entry → ∃ entry', d'.entryAt place = some entry' ∧
    entry.Becomes entry'
  link : ∀ place target, d'.entryAt place = some (.link target) → d.entryAt place = some (.link target)

namespace Grows

theorem refl (d : Disk) : d.Grows d := ⟨rfl, fun _ e h => ⟨e, h, .same e⟩, fun _ _ h => h⟩

theorem trans (h : d.Grows d') (h' : d'.Grows d'') : d.Grows d'' := by
  refine ⟨h'.workingDirectory.trans h.workingDirectory, fun place e he => ?_, fun place target ht => ?_⟩
  · obtain ⟨e', he', hb⟩ := h.becomes place e he
    obtain ⟨e'', he'', hb'⟩ := h'.becomes place e' he'
    exact ⟨e'', he'', hb.trans hb'⟩
  · exact h.link place target (h'.link place target ht)

theorem directory (h : d.Grows d') {place : Place} (hd : d.entryAt place = some .directory) :
    d'.entryAt place = some .directory := by
  obtain ⟨e', he', hb⟩ := h.becomes place _ hd
  cases hb
  exact he'

theorem link_iff (h : d.Grows d') {place : Place} {target : Path} :
    d'.entryAt place = some (.link target) ↔ d.entryAt place = some (.link target) := by
  refine ⟨h.link place target, fun hl => ?_⟩
  obtain ⟨e', he', hb⟩ := h.becomes place _ hl
  cases hb
  exact he'

theorem file (h : d.Grows d') {place : Place} {c : Content} (hf : d.entryAt place = some (.file c)) :
    ∃ c', d'.entryAt place = some (.file c') := by
  obtain ⟨e', he', hb⟩ := h.becomes place _ hf
  cases hb with
  | same => exact ⟨_, he'⟩
  | file _ c' => exact ⟨c', he'⟩

end Grows

/-- Putting something that is no link at a free place, or a file in place of another one, lets a tree grow. -/
theorem grows_put {place : Place} {e : Entry} (hroot : place ≠ []) (hlink : ∀ target, e ≠ .link target)
    (h : ∀ e', d.entryAt place = some e' → e'.Becomes e) : d.Grows (d.put place e) := by
  refine ⟨rfl, fun q e' he' => ?_, fun q target hq => ?_⟩
  · rw [entryAt_put d place q e hroot]
    by_cases hq : place = q
    · subst hq
      exact ⟨e, if_pos rfl, h e' he'⟩
    · exact ⟨e', by rw [if_neg hq, he'], .same e'⟩
  · rw [entryAt_put d place q e hroot] at hq
    split at hq
    · exact absurd (Option.some.inj hq) (hlink target)
    · exact hq

/-- What stands at a target. A link is only met where links at the end are not followed. -/
def Stands (d : Disk) (last : Bool) : Target → Prop
  | .free place => place ≠ [] ∧ d.entryAt place = none
  | .entry place (.file c) => place ≠ [] ∧ d.entryAt place = some (.file c)
  | .entry _ (.link _) => last = false
  | .entry _ .directory => True

/-! ## Where a file can stand -/

/-- What stands at the end of a way through directories. -/
theorem stands_of_follow {last : Bool} {onLink : Place → List RawText → Except Refusal Target}
    (honLink : ∀ here rest t, onLink here rest = .ok t → d.Stands last t) {here : Place} {rest : List RawText}
    {t : Target} (h : d.follow last onLink here rest = .ok t) : d.Stands last t := by
  rw [follow_eq_ok_iff] at h
  induction h with
  | here => trivial
  | stays _ _ ih => exact ih
  | up _ ih => exact ih
  | directory _ _ _ ih => exact ih
  | file _ hentry => exact ⟨by simp, hentry⟩
  | free _ hentry => exact ⟨by simp, hentry⟩
  | link _ _ hlast => exact hlast
  | through _ _ _ hthrough => exact honLink _ _ _ hthrough

/-- Where a path led to a place for a file, it leads to the file that is there when the tree has grown. -/
theorem Grows.follow (hg : d.Grows d') {place : Place} {c : Content} (hc : d'.entryAt place = some (.file c))
    {onLink onLink' : Place → List RawText → Except Refusal Target}
    (honLink : ∀ here rest t, onLink here rest = .ok t → t.Takes place → onLink' here rest = .ok
      (.entry place (.file c)))
    {here : Place} {rest : List RawText} {t : Target} (h : d.follow true onLink here rest = .ok t)
    (ht : t.Takes place) :
    d'.follow true onLink' here rest = .ok (.entry place (.file c)) := by
  rw [follow_eq_ok_iff] at h ⊢
  induction h with
  | here => exact absurd ht id
  | stays hstays _ ih => exact .stays hstays (ih ht)
  | up _ ih => exact .up (ih ht)
  | directory hdown hentry _ ih => exact .directory hdown (hg.directory hentry) (ih ht)
  | file hdown =>
    obtain rfl : _ = place := ht
    exact .file hdown hc
  | free hdown _ _ hend =>
    -- Only at the very end can the file have been put at the place that was free.
    obtain rfl : _ = place := ht
    obtain rfl := hend rfl
    exact .file hdown hc
  | link => exact absurd ht id
  | through hdown hentry hgoes hthrough =>
    exact .through hdown (hg.link_iff.mpr hentry) hgoes (honLink _ _ _ hthrough ht)

/-- What stands at the end of a path. -/
theorem stands_of_resolve {last : Bool} {p : Path} {t : Target} (h : d.resolve last p = .ok t) : d.Stands last t := by
  have hlinks : ∀ links here rest t, d.followLinks last links here rest = .ok t → d.Stands last t := by
    intro links
    induction links with
    | zero => intro _ _ _ h; cases h
    | succ links ih => exact fun here rest t h => stands_of_follow ih h
  unfold resolve at h
  split at h
  · cases h
  split at h
  · cases h
  split at h
  · cases h
  · exact hlinks _ _ _ _ h

/-- **Paths in a tree that has grown.** A path that led to a place for a file leads to the file that is there. -/
theorem Grows.resolve (hg : d.Grows d') {p : Path} {place : Place} {t : Target} {c : Content}
    (h : d.resolve true p = .ok t) (ht : t.Takes place) (hc : d'.entryAt place = some (.file c)) :
    d'.resolve true p = .ok (.entry place (.file c)) := by
  have hlinks : ∀ links here rest t, d.followLinks true links here rest = .ok t → t.Takes place →
      d'.followLinks true links here rest = .ok (.entry place (.file c)) := by
    intro links
    induction links with
    | zero => intro _ _ _ h; cases h
    | succ links ih => exact fun here rest t h ht => hg.follow hc ih h ht
  unfold Disk.resolve at h ⊢
  rw [hg.workingDirectory]
  split at h
  · cases h
  next hzero =>
  split at h
  · cases h
  next hempty =>
  split at h
  · cases h
  next hlong =>
  rw [if_neg hzero, if_neg hempty, if_neg hlong]
  exact hlinks _ _ _ _ h ht

/-! ## The file at a path -/

/-- The place of the file that a path leads to. -/
def fileAt? (d : Disk) (p : Path) : Option Place :=
  match d.resolve true p with
  | .ok (.entry place (.file _)) => some place
  | _ => none

/-- A path leads to a file at a place. -/
theorem fileAt?_eq_some_iff {p : Path} {place : Place} :
    d.fileAt? p = some place ↔ ∃ c, d.resolve true p = .ok (.entry place (.file c)) := by
  unfold fileAt?
  constructor
  · intro h
    split at h
    · next c hresolve =>
      obtain rfl := Option.some.inj h
      exact ⟨c, hresolve⟩
    · cases h
  · rintro ⟨c, hc⟩
    rw [hc]

theorem exists_of_fileAt? {p : Path} {place : Place} (h : d.fileAt? p = some place) :
    ∃ c, d.resolve true p = .ok (.entry place (.file c)) ∧ d.entryAt place = some (.file c) := by
  obtain ⟨c, hc⟩ := fileAt?_eq_some_iff.mp h
  obtain ⟨_, hentry⟩ : d.Stands true (.entry place (.file c)) := stands_of_resolve hc
  exact ⟨c, hc, hentry⟩

/-- A path leads to the same file when the tree has grown. -/
theorem Grows.fileAt? (hg : d.Grows d') {p : Path} {place : Place} (h : d.fileAt? p = some place) :
    d'.fileAt? p = some place := by
  obtain ⟨c, hc, hentry⟩ := exists_of_fileAt? h
  obtain ⟨c', hc'⟩ := hg.file hentry
  exact fileAt?_eq_some_iff.mpr ⟨c', hg.resolve hc rfl hc'⟩

theorem read_of_fileAt? {p : Path} {place : Place} {text : String} (h : d.fileAt? p = some place)
    (ht : d.entryAt place = some (.file (.text text))) : d.read p = .ok text := by
  obtain ⟨c, hc, hentry⟩ := exists_of_fileAt? h
  obtain rfl : .text text = c := by
    rw [ht] at hentry
    cases hentry
    rfl
  rw [read, find, hc]
  rfl

/-- A text is read from a file. -/
theorem exists_of_read {p : Path} {text : String} (h : d.read p = .ok text) :
    ∃ place, d.fileAt? p = some place ∧ d.entryAt place = some (.file (.text text)) := by
  unfold read find at h
  cases hresolve : d.resolve true p with
  | error reason =>
    rw [hresolve] at h
    cases reason <;> cases h
  | ok t =>
    rw [hresolve] at h
    cases t with
    | free place => cases h
    | entry place e =>
      cases e with
      | directory => cases h
      | link target => cases h
      | file c =>
        cases c with
        | bytes bs => cases h
        | text s =>
          cases h
          obtain ⟨_, hentry⟩ : d.Stands true (.entry place (.file (.text text))) := stands_of_resolve hresolve
          exact ⟨place, fileAt?_eq_some_iff.mpr ⟨_, hresolve⟩, hentry⟩

/-! ## Changes -/

/-- A tree that has grown without a change to any file. -/
structure KeepsFiles (d d' : Disk) : Prop extends Grows d d' where
  files : ∀ place c, d'.entryAt place = some (.file c) → d.entryAt place = some (.file c)

namespace KeepsFiles

theorem refl (d : Disk) : d.KeepsFiles d := ⟨.refl d, fun _ _ h => h⟩

theorem trans (h : d.KeepsFiles d') (h' : d'.KeepsFiles d'') : d.KeepsFiles d'' :=
  ⟨h.toGrows.trans h'.toGrows, fun place c hc => h.files place c (h'.files place c hc)⟩

theorem entryAt (h : d.KeepsFiles d') {place : Place} {c : Content} (hc : d.entryAt place = some (.file c)) :
    d'.entryAt place = some (.file c) := by
  obtain ⟨c', hc'⟩ := h.file hc
  have hback := h.files place c' hc'
  rw [hc] at hback
  cases hback
  exact hc'

end KeepsFiles

/-- Making a directory changes no file. -/
theorem keepsFiles_of_makeDirectory {p : Path} (h : d.makeDirectory p = .ok d') : d.KeepsFiles d' := by
  unfold makeDirectory at h
  cases hresolve : d.resolve false (withoutEndSlashes p) with
  | error reason => rw [hresolve] at h; cases h
  | ok t =>
    rw [hresolve] at h
    cases t with
    | entry place e => cases h
    | free place =>
      cases h
      obtain ⟨hroot, hnone⟩ : d.Stands false (.free place) := stands_of_resolve hresolve
      refine ⟨grows_put hroot (fun _ he => by cases he) fun e he => ?_, fun q c hq => ?_⟩
      · rw [hnone] at he
        cases he
      · rw [entryAt_put d place q _ hroot] at hq
        split at hq
        · cases hq
        · exact hq

/-- What stands where a file can be written is a file, if anything. -/
theorem exists_of_takes {t : Target} {place : Place} (hstands : d.Stands true t) (h : t.Takes place) :
    place ≠ [] ∧ ∀ e, d.entryAt place = some e → ∃ c, e = .file c := by
  cases t with
  | free q =>
    obtain rfl : q = place := h
    exact ⟨hstands.1, fun e he => by rw [hstands.2] at he; cases he⟩
  | entry q e =>
    cases e with
    | file c =>
      obtain rfl : q = place := h
      refine ⟨hstands.1, fun e he => ⟨c, ?_⟩⟩
      rw [hstands.2] at he
      exact (Option.some.inj he).symm
    | _ => cases h

/-- Writing a file is putting it where the path leads. -/
theorem exists_put_of_write {p : Path} {c : Content} (h : d.write p c = .ok d') :
    ∃ t place, d.resolve true p = .ok t ∧ t.Takes place ∧ d' = d.put place (.file c) := by
  unfold write at h
  split at h
  · cases hslash : d.resolve false (withoutEndSlashes p) with
    | error reason => rw [hslash] at h; cases h
    | ok t => rw [hslash] at h; cases h
  · cases hresolve : d.resolve true p with
    | error reason => rw [hresolve] at h; cases h
    | ok t =>
      have hstands : d.Stands true t := stands_of_resolve hresolve
      rw [hresolve] at h
      cases t with
      | free place =>
        cases h
        exact ⟨_, place, rfl, rfl, rfl⟩
      | entry place e =>
        cases e with
        | directory => cases h
        | file c' =>
          cases h
          exact ⟨_, place, rfl, rfl, rfl⟩
        | link target => cases hstands

/-- **Writing a file** puts the content at the place that the path then leads to, and changes nothing else. -/
theorem exists_of_write {p : Path} {c : Content} (h : d.write p c = .ok d') :
    d.Grows d' ∧ ∃ place, d'.fileAt? p = some place ∧ d'.entryAt place = some (.file c) ∧
      ∀ q, q ≠ place → d'.entryAt q = d.entryAt q := by
  obtain ⟨t, place, hresolve, ht, rfl⟩ := exists_put_of_write h
  obtain ⟨hroot, hfile⟩ := exists_of_takes (stands_of_resolve hresolve) ht
  have hg : d.Grows (d.put place (.file c)) := by
    refine grows_put hroot (fun _ he => by cases he) fun e he => ?_
    obtain ⟨c', rfl⟩ := hfile e he
    exact .file ..
  have hc : (d.put place (.file c)).entryAt place = some (.file c) := by
    rw [entryAt_put d place place _ hroot, if_pos rfl]
  refine ⟨hg, place, fileAt?_eq_some_iff.mpr ⟨c, hg.resolve hresolve ht hc⟩, hc, fun q hq => ?_⟩
  rw [entryAt_put d place q _ hroot, if_neg (Ne.symm hq)]

end Disk

end InteropBindings
