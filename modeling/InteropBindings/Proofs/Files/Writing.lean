import InteropBindings.Files.Writing
import InteropBindings.Proofs.Disk.Writes
import InteropBindings.Proofs.Files.Jobs

/-!
# What writing a file does

The directories around a file are made one by one, which changes no file and tells nothing. So a file that is written
changes the tree as `Disk.Stores` says (`stores_of_writeFile`).
-/

namespace InteropBindings

theorem run_change (operation : Disk → Except Refusal Disk) (s : LoggedDisk) :
    StateT.run (LoggedDisk.change operation) s = match operation s.disk with
      | .ok d => (.ok (), { s with disk := d })
      | .error reason => (.error reason, s) := by
  unfold LoggedDisk.change
  simp only [get, getThe, MonadStateOf.get, StateT.run, StateT.get, bind, StateT.bind, pure]
  cases operation s.disk <;> rfl

/-- Directories that are left to be made are among those that were asked for. -/
theorem mem_of_makeOutermost {paths inside : List Path} {s s' : LoggedDisk}
    (h : (makeOutermost paths : StateM LoggedDisk (Except Refusal (List Path))).run s = (.ok inside, s')) :
    ∀ q ∈ inside, q ∈ paths := by
  induction paths generalizing s inside with
  | nil =>
    cases h
    exact fun _ hq => hq
  | cons path around ih =>
    unfold makeOutermost at h
    split at h
    · cases h
      simp
    · cases hmake : (FileAccess.makeDirectory path : StateM LoggedDisk (Except Refusal Unit)).run s with
      | mk result s₁ =>
        rw [run_bind_eq hmake] at h
        split at h
        · cases h
          simp
        · -- Only here is the directory itself left to be made.
          cases hrest : (makeOutermost around : StateM LoggedDisk (Except Refusal (List Path))).run s₁ with
          | mk answer s₂ =>
            rw [run_bind_eq hrest] at h
            cases answer with
            | error reason => cases h
            | ok rest =>
              cases h
              exact List.forall_mem_cons.mpr ⟨List.mem_cons_self, fun q hq => List.mem_cons_of_mem _ (ih hrest q hq)⟩
        · cases hthere : (isDirectory path : StateM LoggedDisk Bool).run s₁ with
          | mk there s₂ =>
            rw [run_bind_eq hthere] at h
            cases there <;> cases h
            simp
        · cases h

namespace Respects

variable {R : LoggedDisk → LoggedDisk → Prop} [Std.Refl R] [Trans R R R]

theorem isDirectory (path : Path) : Respects R (isDirectory path : StateM LoggedDisk Bool) := by
  refine .bind (.ask _) fun status => ?_
  cases status <;> exact .pure _

/-- Making the outermost directory that is not there respects what making the directories does. -/
theorem makeOutermost {paths : List Path}
    (hmake : ∀ path ∈ paths, Respects R (FileAccess.makeDirectory path : StateM LoggedDisk (Except Refusal Unit))) :
    Respects R (makeOutermost paths : StateM LoggedDisk (Except Refusal (List Path))) := by
  induction paths with
  | nil => exact .pure _
  | cons path around ih =>
    obtain ⟨hfirst, haround⟩ := List.forall_mem_cons.mp hmake
    unfold InteropBindings.makeOutermost
    split
    · exact .pure _
    · refine .bind hfirst fun result => ?_
      split
      · exact .pure _
      · exact .bind (ih haround) fun _ => .pure _
      · exact .bind (isDirectory path) fun _ => .pure _
      · exact .pure _

/-- Making directories one after the other respects what making them does. -/
theorem makeEach {paths : List Path}
    (hmake : ∀ path ∈ paths, Respects R (FileAccess.makeDirectory path : StateM LoggedDisk (Except Refusal Unit))) :
    Respects R (makeEach paths : StateM LoggedDisk (Except Refusal Unit)) := by
  induction paths with
  | nil => exact .pure _
  | cons path inside ih =>
    obtain ⟨hfirst, hinside⟩ := List.forall_mem_cons.mp hmake
    unfold InteropBindings.makeEach
    refine .bind hfirst fun result => ?_
    split
    · exact ih hinside
    · refine .bind (isDirectory path) fun there => ?_
      cases there
      · exact .pure _
      · exact ih hinside
    · exact .pure _

/-- **Making a directory** and those around it respects what making each of them does. -/
theorem ensureDirectory (path : Path)
    (hmake : ∀ q ∈ path.ancestors, Respects R (FileAccess.makeDirectory q : StateM LoggedDisk (Except Refusal Unit))) :
    Respects R (ensureDirectory path : StateM LoggedDisk (Except Refusal Unit)) := by
  refine .bind_of (makeOutermost hmake) fun s => ?_
  cases hresult :
      (InteropBindings.makeOutermost path.ancestors : StateM LoggedDisk (Except Refusal (List Path))).run s with
  | mk result s' =>
    cases result with
    | error reason => exact .pure _
    | ok inside =>
      exact makeEach fun q hq => hmake q (mem_of_makeOutermost hresult q (List.mem_reverse.mp hq))

/-- Writing a file respects what making directories and writing do. -/
theorem writeFile {path : Path} {text : String}
    (hmake : ∀ around q, path.parent = some around → q ∈ around.ancestors →
      Respects R (FileAccess.makeDirectory q : StateM LoggedDisk (Except Refusal Unit)))
    (hwrite : Respects R (FileAccess.write path text : StateM LoggedDisk (Except Refusal Unit))) :
    Respects R (writeFile path text : Job (StateM LoggedDisk) Unit).run := by
  unfold InteropBindings.writeFile
  cases hparent : path.parent with
  | none => exact .allowed hwrite
  | some around =>
    exact .bind_job (.allowed (ensureDirectory around fun q => hmake around q hparent)) fun _ => .allowed hwrite

end Respects

/-- Nothing is told and no file changes. -/
def FilesStay (s s' : LoggedDisk) : Prop := s.disk.KeepsFiles s'.disk ∧ s'.events = s.events

namespace FilesStay

instance : Std.Refl FilesStay := ⟨fun s => ⟨.refl s.disk, rfl⟩⟩

instance : Trans FilesStay FilesStay FilesStay := ⟨fun h h' => ⟨h.1.trans h'.1, h'.2.trans h.2⟩⟩

theorem makeDirectory (path : Path) :
    Respects FilesStay (FileAccess.makeDirectory path : StateM LoggedDisk (Except Refusal Unit)) := by
  intro s
  change FilesStay s (StateT.run (LoggedDisk.change (·.makeDirectory path)) s).2
  rw [run_change]
  cases h : s.disk.makeDirectory path with
  | error reason => exact Std.Refl.refl s
  | ok d => exact ⟨Disk.keepsFiles_of_makeDirectory h, rfl⟩

end FilesStay

/-- **Writing a file** stores its text, and tells nothing. -/
theorem stores_of_writeFile {path : Path} {text : String} {s s' : LoggedDisk} {u : Unit}
    (h : Job.Ends (writeFile path text) s u s') : s.disk.Stores (path, text) s'.disk ∧ s'.events = s.events := by
  have hwrite : ∀ {s₁ : LoggedDisk}, FilesStay s s₁ →
      Job.Ends (allowed .refused (FileAccess.write path text)) s₁ u s' →
      s.disk.Stores (path, text) s'.disk ∧ s'.events = s.events := by
    intro s₁ hstay hwrite
    have hrun : StateT.run (LoggedDisk.change (·.write path (.text text))) s₁ = (.ok u, s') :=
      Job.ends_allowed.mp hwrite
    rw [run_change] at hrun
    cases hd : s₁.disk.write path (.text text) with
    | error reason => rw [hd] at hrun; cases hrun
    | ok d =>
      rw [hd] at hrun
      cases hrun
      exact ⟨⟨s₁.disk, hstay.1, hd⟩, hstay.2⟩
  unfold writeFile at h
  cases hparent : path.parent with
  | none =>
    rw [hparent] at h
    exact hwrite (Std.Refl.refl s) h
  | some around =>
    rw [hparent] at h
    obtain ⟨_, s₁, hensure, hrest⟩ := Job.ends_bind.mp h
    have hstay := Respects.ensureDirectory around (fun q _ => FilesStay.makeDirectory q) s
    rw [Job.ends_allowed.mp hensure] at hstay
    exact hwrite hstay hrest

end InteropBindings
