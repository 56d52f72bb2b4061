import InteropBindings.Proofs.Disk.Links
import InteropBindings.Proofs.Disk.Overwriting
import InteropBindings.Proofs.Files.Writing
import InteropBindings.Proofs.Path.Cutting

/-!
# Writing files for the first time and again

Writing a file extends a tree (`extends_of_writeFile`). A file that is there is written without making any directory,
since all directories around it are there (`ends_writeFile_of_fileAt?`). So is a file in a directory that a path leads
to, also when the path leads there through links (`ends_writeFile_join_iff`).
-/

namespace InteropBindings

open Disk

variable {s s' : LoggedDisk} {p : Path} {text : String}

/-! ## The first time -/

/-- A plain tree is extended, with files under some paths. -/
def Extending (written : Path → Prop) (s s' : LoggedDisk) : Prop :=
  s.disk.IsPlain → Extends written s.disk s'.disk ∧ s'.disk.IsPlain

namespace Extending

variable {written : Path → Prop}

instance : Std.Refl (Extending written) := ⟨fun s h => ⟨.refl written s.disk, h⟩⟩

instance : Trans (Extending written) (Extending written) (Extending written) :=
  ⟨fun h h' hplain =>
    have ⟨hextends, hplain'⟩ := h hplain
    have ⟨hextends', hplain''⟩ := h' hplain'
    ⟨hextends.trans hextends', hplain''⟩⟩

theorem mono {written' : Path → Prop} (h : Extending written s s') (hsub : ∀ p, written p → written' p) :
    Extending written' s s' := fun hplain =>
  ⟨(h hplain).1.mono hsub, (h hplain).2⟩

theorem change {operation : Disk → Except Refusal Disk}
    (h : ∀ d d', d.IsPlain → operation d = .ok d' → Extends written d d' ∧ d'.IsPlain) :
    Respects (Extending written) (LoggedDisk.change operation) := by
  intro s hplain
  rw [run_change]
  cases hop : operation s.disk with
  | error reason => exact ⟨.refl written s.disk, hplain⟩
  | ok d => exact h s.disk d hplain hop

theorem writeFile (hp : written p) :
    Respects (Extending written) (writeFile p text : Job (StateM LoggedDisk) Unit).run :=
  .writeFile (fun _ _ _ _ => change fun _ _ hplain hmake => hplain.makeDirectory hmake)
    (change fun _ _ hplain hwrite => hplain.write hwrite hp)

end Extending

/-- **Writing a file** extends a plain tree. -/
theorem extends_of_writeFile {written : Path → Prop} {u : Unit} (h : Job.Ends (writeFile p text) s u s')
    (hplain : s.disk.IsPlain) (hp : written p) : Extends written s.disk s'.disk ∧ s'.disk.IsPlain :=
  (Extending.writeFile hp).of_ends h hplain

/-! ## Again -/

/-- The path of a file does not end with a slash. -/
theorem Disk.LinkFree.not_endsWith_slash {d : Disk} (hlinks : d.LinkFree) (hp : (d.fileAt? p).isSome) :
    p.text.endsWith "/" = false := by
  rw [Bool.eq_false_iff]
  intro hend
  obtain ⟨before, hbefore⟩ := List.isSuffixOf_iff_suffix.mp hend
  obtain ⟨place, hplace⟩ := Option.isSome_iff_exists.mp hp
  obtain ⟨c, hresolve⟩ := fileAt?_eq_some_iff.mp hplace
  have htext : p.text = RawText.ofList before ++ "/" ++ "" := by
    rw [← RawText.toList_inj, ← hbefore]
    simp
  have hpieces : pieces p = pieces ⟨RawText.ofList before⟩ ++ [RawText.ofString ""] := by
    rw [pieces, htext]
    exact RawText.segments_append slash _ ""
  rw [(isFollowed_of_resolve hresolve).resolve_eq, hpieces] at hresolve
  obtain ⟨around, haround⟩ := hlinks.through_of_follow hresolve (.inl (by simp))
  rw [follow_append haround] at hresolve
  cases hresolve

/-- No directory is left to be made at a path: it leads to one already, or there is nothing to make. -/
def Disk.HasDirectory (d : Disk) (q : Path) : Prop :=
  q.text = "" ∨ q.parent = none ∨ ∃ place, d.resolve true q = .ok (.entry place .directory)

/-- **Making a directory** changes nothing when none is left to be made. -/
theorem run_ensureDirectory {q : Path} (h : s.disk.HasDirectory q) :
    StateT.run (ensureDirectory q : StateM LoggedDisk (Except Refusal Unit)) s = (.ok (), s) := by
  have houtermost :
      StateT.run (makeOutermost q.ancestors : StateM LoggedDisk (Except Refusal (List Path))) s = (.ok [], s) := by
    rw [Path.ancestors, Path.ancestorsTo, makeOutermost]
    split
    · rfl
    · next hinner =>
      rw [Bool.or_eq_true, not_or, List.isEmpty_iff, Option.isNone_iff_eq_none] at hinner
      obtain hempty | hroot | ⟨place, hplace⟩ := h
      · refine absurd ?_ hinner.1
        rw [show q = ⟨""⟩ from congrArg Path.mk hempty]
        rfl
      · exact absurd hroot hinner.2
      have hmake : StateT.run (FileAccess.makeDirectory q : StateM LoggedDisk (Except Refusal Unit)) s =
          (.error .alreadyThere, s) := by
        change StateT.run (LoggedDisk.change (·.makeDirectory q)) s = _
        rw [run_change, makeDirectory_of_directory hplace]
      have hdirectory : StateT.run (isDirectory q : StateM LoggedDisk Bool) s = (true, s) := by
        have hstatus : s.disk.status q = .ok ⟨Kind.directory, place⟩ := by
          rw [status, find, hplace]
          rfl
        have hask : StateT.run (FileAccess.status q : StateM LoggedDisk (Except Refusal Status)) s =
            (.ok ⟨Kind.directory, place⟩, s) := congrArg (·, s) hstatus
        rw [isDirectory, run_bind_eq hask]
        rfl
      rw [run_bind_eq hmake]
      dsimp only
      rw [run_bind_eq hdirectory]
      rfl
  rw [ensureDirectory, run_bind_eq houtermost]
  rfl

/-- Around a file that is there, all directories are there. -/
theorem Disk.LinkFree.hasDirectory_of_parent {d : Disk} {q : Path} (hlinks : d.LinkFree) (hp : (d.fileAt? p).isSome)
    (hq : p.parent = some q) : d.HasDirectory q := by
  by_cases hempty : q.text = ""
  · exact .inl hempty
  · obtain hempty' | hroot | ⟨rest, htext⟩ := Path.text_of_parent hq
    · exact absurd hempty' hempty
    · exact .inr (.inl hroot)
    · obtain ⟨around, haround⟩ := hlinks.exists_directory_of_append hp htext hempty
      exact .inr (.inr ⟨around, haround true⟩)

theorem ends_write_iff : Job.Ends (allowed .refused (FileAccess.write p text)) s () s' ↔
    ∃ d, s.disk.write p (.text text) = .ok d ∧ s' = { s with disk := d } := by
  rw [Job.ends_allowed]
  change StateT.run (LoggedDisk.change (·.write p (.text text))) s = _ ↔ _
  rw [run_change]
  cases s.disk.write p (.text text) with
  | error reason =>
    constructor
    · rintro ⟨⟩
    · rintro ⟨_, ⟨⟩, _⟩
  | ok d =>
    constructor
    · rintro ⟨⟩
      exact ⟨d, rfl, rfl⟩
    · rintro ⟨_, ⟨⟩, rfl⟩
      rfl

/-- **Writing a file** is one write when all directories around it are there. -/
theorem ends_writeFile_iff_write (h : ∀ q, p.parent = some q → s.disk.HasDirectory q) :
    Job.Ends (writeFile p text) s () s' ↔ ∃ d, s.disk.write p (.text text) = .ok d ∧ s' = { s with disk := d } := by
  rw [← ends_write_iff]
  unfold writeFile
  cases hparent : p.parent with
  | none => rfl
  | some around =>
    have haround := run_ensureDirectory (h around hparent)
    constructor
    · intro hends
      obtain ⟨_, s₁, hensure, hwrite⟩ := Job.ends_bind.mp hends
      rw [Job.ends_allowed, haround] at hensure
      cases hensure
      exact hwrite
    · exact fun hwrite => Job.ends_bind.mpr ⟨(), s, Job.ends_allowed.mpr haround, hwrite⟩

/-- **Writing a file again** changes its text and nothing else. -/
theorem ends_writeFile_of_fileAt? (hlinks : s.disk.LinkFree) (hp : (s.disk.fileAt? p).isSome) :
    Job.Ends (writeFile p text) s () { s with disk := s.disk.overwrite (p, text) } := by
  obtain ⟨place, hplace⟩ := Option.isSome_iff_exists.mp hp
  obtain ⟨c, hresolve⟩ := fileAt?_eq_some_iff.mp hplace
  have hput : s.disk.write p (.text text) = .ok (s.disk.overwrite (p, text)) := by
    rw [write, hlinks.not_endsWith_slash hp, hresolve, overwrite, ← hlinks.fileAt? hplace]
    rfl
  exact (ends_writeFile_iff_write fun q => hlinks.hasDirectory_of_parent hp).mpr ⟨_, hput, rfl⟩

/-! ## Into a directory -/

/-- Around a name in a directory that a path leads to, all directories are there. -/
theorem Disk.hasDirectory_of_parent_join {d : Disk} {dir q : Path} {name : RawText} {place : Place}
    (hdir : d.resolve true dir = .ok (.entry place .directory)) (hname : Path.IsName name)
    (hfollowed : IsFollowed (dir.join name)) (hq : (dir.join name).parent = some q) : d.HasDirectory q := by
  by_cases hempty : q.text = ""
  · exact .inl hempty
  · obtain hempty' | hroot | ⟨rest, htext⟩ := Path.text_of_parent hq
    · exact absurd hempty' hempty
    · exact .inr (.inl hroot)
    · rw [RawText.append_assoc] at htext
      have hcomponents : q.components = dir.components := by
        rw [Path.components_of_parent hq, hname.components_join, List.dropLast_concat]
      exact .inr (.inr ⟨place, resolve_of_components hdir hcomponents (hfollowed.of_append htext hempty)⟩)

/-- **Writing a file into a directory** that a path leads to makes no directories. -/
theorem ends_writeFile_join_iff {dir : Path} {name : RawText} {place : Place}
    (hdir : s.disk.resolve true dir = .ok (.entry place .directory)) (hname : Path.IsName name) :
    Job.Ends (writeFile (dir.join name) text) s () s' ↔
      ∃ d, s.disk.write (dir.join name) (.text text) = .ok d ∧ s' = { s with disk := d } := by
  -- The path is one that can be followed when something is written under it, in whichever state.
  have hplain : IsFollowed (dir.join name) → (Job.Ends (writeFile (dir.join name) text) s () s' ↔
      ∃ d, s.disk.write (dir.join name) (.text text) = .ok d ∧ s' = { s with disk := d }) := fun hfollowed =>
    ends_writeFile_iff_write fun q => hasDirectory_of_parent_join hdir hname hfollowed
  constructor
  · intro h
    obtain ⟨⟨d₁, _, hwrite⟩, _⟩ := stores_of_writeFile h
    obtain ⟨t, _, hresolve, _⟩ := exists_put_of_write hwrite
    exact (hplain (isFollowed_of_resolve hresolve)).mp h
  · rintro ⟨d, hwrite, rfl⟩
    obtain ⟨t, _, hresolve, _⟩ := exists_put_of_write hwrite
    exact (hplain (isFollowed_of_resolve hresolve)).mpr ⟨d, hwrite, rfl⟩

end InteropBindings
