import InteropBindings.Proofs.Disk.Twins
import InteropBindings.Proofs.Files.Writing
import InteropBindings.Proofs.Path.Cutting

/-!
# Jobs on two trees

A job on two trees mirrors itself when it gives the same answer on both and keeps them in a relation (`Mirrors`). On
twins this holds of whatever keeps to clear paths: writing a file, with the directories around it (`Mirrors.writeFile`),
and anything that looks at the entries of a directory in any order (`Mirrors.bind_list`).
-/

namespace InteropBindings

open Disk (Twins)
open InteropBindings.Path

variable {α β : Type}

/-- On related states some steps give the same answer and lead to related states. -/
def Mirrors (R : LoggedDisk → LoggedDisk → Prop) (steps : StateM LoggedDisk α) : Prop :=
  ∀ s t, R s t → (steps.run t).1 = (steps.run s).1 ∧ R (steps.run s).2 (steps.run t).2

namespace Mirrors

variable {R : LoggedDisk → LoggedDisk → Prop}

/-- On related states there is one answer. -/
theorem exists_run {steps : StateM LoggedDisk α} (h : Mirrors R steps) {s t : LoggedDisk} (hR : R s t) :
    ∃ a s' t', steps.run s = (a, s') ∧ steps.run t = (a, t') ∧ R s' t' := by
  obtain ⟨hsame, hR'⟩ := h s t hR
  exact ⟨(steps.run s).1, (steps.run s).2, (steps.run t).2, rfl, Prod.ext hsame rfl, hR'⟩

/-! ## Steps -/

theorem pure (a : α) : Mirrors R (Pure.pure a) := fun _ _ h => ⟨rfl, h⟩

theorem bind_of {steps : StateM LoggedDisk α} {next : α → StateM LoggedDisk β} (h : Mirrors R steps)
    (hnext : ∀ s t, R s t → Mirrors R (next (steps.run s).1)) : Mirrors R (steps >>= next) := by
  intro s t hR
  obtain ⟨hsame, hR'⟩ := h s t hR
  have hrun : ∀ u, StateT.run (steps >>= next) u = (next (steps.run u).1).run (steps.run u).2 := fun _ => rfl
  rw [hrun, hrun, hsame]
  exact hnext s t hR _ _ hR'

/-- **Steps in a row** mirror themselves when all of them do. -/
theorem bind {steps : StateM LoggedDisk α} {next : α → StateM LoggedDisk β} (h : Mirrors R steps)
    (hnext : ∀ a, Mirrors R (next a)) : Mirrors R (steps >>= next) := h.bind_of fun _ _ _ => hnext _

theorem ask {question : Disk → α} (h : ∀ s t, R s t → question t.disk = question s.disk) :
    Mirrors R (LoggedDisk.ask question) := fun s t hR => ⟨h s t hR, hR⟩

/-! ## Jobs -/

theorem lift {steps : StateM LoggedDisk α} (h : Mirrors R steps) :
    Mirrors R (ExceptT.lift steps : Job (StateM LoggedDisk) α).run := bind h fun _ => pure _

theorem allowed {fault : Refusal → Fault} {steps : StateM LoggedDisk (Except Refusal α)} (h : Mirrors R steps) :
    Mirrors R (InteropBindings.allowed fault steps).run := bind h fun _ => pure _

/-- **Jobs in a row** mirror themselves when all of them do. -/
theorem bind_job {job : Job (StateM LoggedDisk) α} {next : α → Job (StateM LoggedDisk) β} (h : Mirrors R job.run)
    (hnext : ∀ a, Mirrors R (next a).run) : Mirrors R (job >>= next).run := by
  have hresult : ∀ result, Mirrors R (ExceptT.bindCont next result) := by
    intro result
    cases result with
    | ok a => exact hnext a
    | error fault => exact pure _
  exact bind h hresult

/-- What comes after a result that is there already. -/
theorem bind_result {r : Except Fault α} {next : α → Job (StateM LoggedDisk) β}
    (h : ∀ a, r = .ok a → Mirrors R (next a).run) :
    Mirrors R (ofResult r >>= next).run := by
  cases r with
  | ok a => exact h a rfl
  | error fault => exact pure _

theorem forM {job : α → Job (StateM LoggedDisk) Unit} {xs : List α} (h : ∀ x ∈ xs, Mirrors R (job x).run) :
    Mirrors R (xs.forM job).run := by
  induction xs with
  | nil => exact pure _
  | cons x xs ih =>
    obtain ⟨hx, hxs⟩ := List.forall_mem_cons.mp h
    exact bind_job hx fun _ => ih hxs

theorem mapM {job : α → Job (StateM LoggedDisk) β} {xs : List α} (h : ∀ x ∈ xs, Mirrors R (job x).run) :
    Mirrors R (xs.mapM job).run := by
  induction xs with
  | nil => exact pure _
  | cons x xs ih =>
    obtain ⟨hx, hxs⟩ := List.forall_mem_cons.mp h
    rw [List.mapM_cons]
    exact bind_job hx fun _ => bind_job (ih hxs) fun _ => pure _

end Mirrors

/-! ## Twins -/

/-- The trees of two states are twins, whatever has been told. -/
def TwinStates (place : Place) (d₀ t₀ : Disk) (s t : LoggedDisk) : Prop := Twins place d₀ t₀ s.disk t.disk

namespace Mirrors

variable {place : Place} {d₀ t₀ : Disk} {p : Path}

theorem tellAll (events : List Event) :
    Mirrors (TwinStates place d₀ t₀) (tellAll events : Job (StateM LoggedDisk) Unit).run :=
  forM fun _ _ => lift fun _ _ h => ⟨rfl, h⟩

theorem change {operation : Disk → Except Refusal Disk} (h : Twins.ChangesAlike place d₀ t₀ operation) :
    Mirrors (TwinStates place d₀ t₀) (LoggedDisk.change operation) := by
  intro s t htwins
  rw [run_change, run_change]
  rcases h s.disk t.disk htwins with ⟨reason, hd, ht⟩ | ⟨d', t', hd, ht, htwins'⟩
  · rw [hd, ht]
    exact ⟨rfl, htwins⟩
  · rw [hd, ht]
    exact ⟨rfl, htwins'⟩

theorem isDirectory (hclear : p.IsClear place d₀.workingDirectory) :
    Mirrors (TwinStates place d₀ t₀) (isDirectory p : StateM LoggedDisk Bool) := by
  refine bind (ask fun s t h => h.status_eq hclear) fun status => ?_
  cases status <;> exact pure _

/-- Making the outermost directory that is not there. -/
theorem makeOutermost {paths : List Path} (hclear : ∀ q ∈ paths, q.IsClear place d₀.workingDirectory) :
    Mirrors (TwinStates place d₀ t₀) (makeOutermost paths : StateM LoggedDisk (Except Refusal (List Path))) := by
  induction paths with
  | nil => exact pure _
  | cons path around ih =>
    obtain ⟨hfirst, haround⟩ := List.forall_mem_cons.mp hclear
    unfold InteropBindings.makeOutermost
    split
    · exact pure _
    · refine bind (change (Twins.makeDirectory hfirst)) fun result => ?_
      split
      · exact pure _
      · exact bind (ih haround) fun _ => pure _
      · exact bind (isDirectory hfirst) fun _ => pure _
      · exact pure _

/-- Making directories one after the other. -/
theorem makeEach {paths : List Path} (hclear : ∀ q ∈ paths, q.IsClear place d₀.workingDirectory) :
    Mirrors (TwinStates place d₀ t₀) (makeEach paths : StateM LoggedDisk (Except Refusal Unit)) := by
  induction paths with
  | nil => exact pure _
  | cons path inside ih =>
    obtain ⟨hfirst, hinside⟩ := List.forall_mem_cons.mp hclear
    unfold InteropBindings.makeEach
    refine bind (change (Twins.makeDirectory hfirst)) fun result => ?_
    split
    · exact ih hinside
    · refine bind (isDirectory hfirst) fun there => ?_
      cases there
      · exact pure _
      · exact ih hinside
    · exact pure _

/-- Making a directory and those around it. -/
theorem ensureDirectory (hclear : p.IsClear place d₀.workingDirectory) :
    Mirrors (TwinStates place d₀ t₀) (ensureDirectory p : StateM LoggedDisk (Except Refusal Unit)) := by
  have hancestors : ∀ q ∈ p.ancestors, q.IsClear place d₀.workingDirectory :=
    fun q hq => hclear.of_prefix (prefix_of_mem_ancestorsTo hq)
  refine bind_of (makeOutermost hancestors) fun s t _ => ?_
  cases hresult :
      (InteropBindings.makeOutermost p.ancestors : StateM LoggedDisk (Except Refusal (List Path))).run s with
  | mk result s' =>
    cases result with
    | error reason => exact pure _
    | ok inside => exact makeEach fun q hq => hancestors q (mem_of_makeOutermost hresult q (List.mem_reverse.mp hq))

/-- **Writing a file** under a clear path. -/
theorem writeFile {text : String} (hclear : p.IsClear place d₀.workingDirectory) :
    Mirrors (TwinStates place d₀ t₀) (writeFile p text : Job (StateM LoggedDisk) Unit).run := by
  have hwrite : Mirrors (TwinStates place d₀ t₀)
      (InteropBindings.allowed .refused (FileAccess.write p text) : Job (StateM LoggedDisk) Unit).run :=
    allowed (change (Twins.write hclear (.text text)))
  unfold InteropBindings.writeFile
  cases hparent : p.parent with
  | none => exact hwrite
  | some around =>
    have haround : around.IsClear place d₀.workingDirectory :=
      hclear.of_prefix (by rw [components_of_parent hparent]; exact List.dropLast_prefix _)
    exact bind_job (allowed (ensureDirectory haround)) fun _ => hwrite

/-- **Looking at the entries** of a directory that is neither the place nor below it, in any order. -/
theorem bind_list {fault : Refusal → Fault} {next : List (RawText × Kind) → Job (StateM LoggedDisk) β}
    (hclear : p.IsClear place d₀.workingDirectory) (hp : ¬ place <+: d₀.placeOf p)
    (horder : ∀ entries entries', entries'.Perm entries → next entries' = next entries)
    (hnext : ∀ entries, Mirrors (TwinStates place d₀ t₀) (next entries).run) :
    Mirrors (TwinStates place d₀ t₀) (InteropBindings.allowed fault (FileAccess.list p) >>= next).run := by
  intro s t h
  have hrun : ∀ u : LoggedDisk, StateT.run (InteropBindings.allowed fault (FileAccess.list p) >>= next).run u =
      match u.disk.list p with
      | .ok entries => (next entries).run.run u
      | .error reason => (.error (fault reason), u) := by
    intro u
    refine (Job.run_bind _ _).trans ?_
    have hlist : StateT.run (InteropBindings.allowed fault (FileAccess.list p) : Job (StateM LoggedDisk) _).run u =
        ((u.disk.list p).mapError fault, u) := rfl
    rw [hlist]
    cases u.disk.list p <;> rfl
  rw [hrun, hrun]
  rcases h.list_cases hclear hp with ⟨reason, hd, ht⟩ | ⟨entries, entries', hd, ht, hperm⟩
  · rw [hd, ht]
    exact ⟨rfl, h⟩
  · rw [hd, ht]
    dsimp only
    rw [horder _ _ hperm]
    exact hnext entries s t h

end Mirrors

end InteropBindings
