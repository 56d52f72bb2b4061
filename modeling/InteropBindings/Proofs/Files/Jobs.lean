import InteropBindings.Disk.Access

/-!
# Jobs on a tree in memory

What a job does is read off its steps.

- a job that ends well takes all its steps, each of which ends well (`Job.ends_bind` and the lemmas around it);
- a job fails with the faults of its steps (`Job.FailsOnly.bind`);
- a relation that every operation respects holds between the states before and after a job, whether it ends well or not
  (`Respects.bind`).
-/

namespace InteropBindings

variable {α β : Type} {s s' : LoggedDisk}

theorem run_bind_eq {steps : StateM LoggedDisk α} {next : α → StateM LoggedDisk β} {a : α} (h : steps.run s = (a, s')) :
    StateT.run (steps >>= next) s = (next a).run s' := by
  rw [StateT.run_bind, h]
  rfl

theorem run_ask (question : Disk → α) (s : LoggedDisk) :
    StateT.run (LoggedDisk.ask question) s = (question s.disk, s) := rfl

theorem run_status (s : LoggedDisk) (p : Path) :
    StateT.run (FileAccess.status p : StateM LoggedDisk (Except Refusal Status)) s = (s.disk.status p, s) := run_ask _ s

theorem run_list (s : LoggedDisk) (p : Path) :
    StateT.run (FileAccess.list p : StateM LoggedDisk (Except Refusal (List (RawText × Kind)))) s =
      (s.disk.list p, s) :=
  run_ask _ s

/-! ## Jobs that end well -/

namespace Job

/-- A job on a tree in memory ends well, with an answer and a state. -/
def Ends (job : Job (StateM LoggedDisk) α) (s : LoggedDisk) (a : α) (s' : LoggedDisk) : Prop :=
  job.run.run s = (.ok a, s')

instance [DecidableEq α] (job : Job (StateM LoggedDisk) α) (s : LoggedDisk) (a : α) (s' : LoggedDisk) :
    Decidable (job.Ends s a s') :=
  match h : job.run.run s with
  | (.ok b, t) => decidable_of_iff (b = a ∧ t = s') (by
      rw [Ends, h]
      constructor
      · rintro ⟨rfl, rfl⟩
        rfl
      · intro he
        cases he
        exact ⟨rfl, rfl⟩)
  | (.error _, _) => isFalse (by
      rw [Ends, h]
      intro he
      cases he)

theorem ends_of_answer {job : Job (StateM LoggedDisk) α} {a : α} (h : (job.run.run s).1 = .ok a) :
    job.Ends s a (job.run.run s).2 := Prod.ext h rfl

/-- A job ends in one way only. -/
theorem Ends.unique {job : Job (StateM LoggedDisk) α} {a b : α} {t t' : LoggedDisk} (h : job.Ends s a t)
    (h' : job.Ends s b t') :
    a = b ∧ t = t' := by
  have hboth := h.symm.trans h'
  exact ⟨Except.ok.inj (congrArg Prod.fst hboth), congrArg Prod.snd hboth⟩

@[simp] theorem ends_pure {a b : α} : Ends (pure a) s b s' ↔ b = a ∧ s' = s := by
  constructor
  · intro h
    cases h
    exact ⟨rfl, rfl⟩
  · rintro ⟨rfl, rfl⟩
    rfl

@[simp] theorem not_ends_throw {fault : Fault} {a : α} : ¬ Ends (throw fault) s a s' := by
  intro h
  cases h

theorem run_bind (job : Job (StateM LoggedDisk) α) (next : α → Job (StateM LoggedDisk) β) :
    ExceptT.run (job >>= next) s = match job.run.run s with
      | (.ok a, s₁) => (next a).run.run s₁
      | (.error fault, s₁) => (.error fault, s₁) := by
  unfold ExceptT.run StateT.run
  simp only [bind, ExceptT.bind, ExceptT.mk, StateT.bind]
  cases job s with
  | mk result s₁ => cases result <;> rfl

theorem run_bind_of_ends {job : Job (StateM LoggedDisk) α} {a : α} {s₁ : LoggedDisk} (h : job.Ends s a s₁)
    (next : α → Job (StateM LoggedDisk) β) : ExceptT.run (job >>= next) s = (next a).run.run s₁ := by
  have hjob : job.run.run s = (.ok a, s₁) := h
  rw [run_bind, hjob]

/-- **Two jobs in a row** end well when both do. -/
theorem ends_bind {job : Job (StateM LoggedDisk) α} {next : α → Job (StateM LoggedDisk) β} {b : β} :
    Ends (job >>= next) s b s' ↔ ∃ a s₁, job.Ends s a s₁ ∧ (next a).Ends s₁ b s' := by
  change ExceptT.run (job >>= next) s = (.ok b, s') ↔ ∃ a s₁, job.run.run s = (.ok a, s₁) ∧
    (next a).run.run s₁ = (.ok b, s')
  rw [run_bind]
  cases job.run.run s with
  | mk result s₁ =>
    cases result with
    | ok a =>
      constructor
      · exact fun h => ⟨a, s₁, rfl, h⟩
      · rintro ⟨_, _, hjob, h⟩
        cases hjob
        exact h
    | error fault =>
      constructor
      · intro h
        cases h
      · rintro ⟨_, _, hjob, _⟩
        cases hjob

/-- A step that cannot fail. -/
@[simp] theorem ends_lift {step : StateM LoggedDisk α} {a : α} :
    Ends (ExceptT.lift step) s a s' ↔ step.run s = (a, s') := by
  have hrun : ExceptT.run (ExceptT.lift step : Job (StateM LoggedDisk) α) s =
      (.ok (step.run s).1, (step.run s).2) := rfl
  constructor
  · intro h
    have h' : ExceptT.run (ExceptT.lift step : Job (StateM LoggedDisk) α) s = (.ok a, s') := h
    rw [hrun] at h'
    cases h'
    rfl
  · intro h
    change ExceptT.run (ExceptT.lift step : Job (StateM LoggedDisk) α) s = (.ok a, s')
    rw [hrun, h]

@[simp] theorem ends_ofResult {result : Except Fault α} {a : α} :
    Ends (ofResult result) s a s' ↔ result = .ok a ∧ s' = s := by
  constructor
  · intro h
    cases h
    exact ⟨rfl, rfl⟩
  · rintro ⟨rfl, rfl⟩
    rfl

/-- An operation that may be refused. -/
theorem ends_allowed {fault : Refusal → Fault} {operation : StateM LoggedDisk (Except Refusal α)} {a : α} :
    Ends (allowed fault operation) s a s' ↔ operation.run s = (.ok a, s') := by
  have hrun : ExceptT.run (allowed fault operation) s =
      ((operation.run s).1.mapError fault, (operation.run s).2) := rfl
  constructor
  · intro h
    have h' : ExceptT.run (allowed fault operation) s = (.ok a, s') := h
    rw [hrun] at h'
    cases hop : operation.run s with
    | mk result s₁ =>
      rw [hop] at h'
      cases result with
      | ok a' =>
        cases h'
        rfl
      | error reason => cases h'
  · intro h
    change ExceptT.run (allowed fault operation) s = (.ok a, s')
    rw [hrun, h]
    rfl

theorem ends_forM_cons {job : α → Job (StateM LoggedDisk) Unit} {x : α} {xs : List α} {u : Unit} :
    Ends ((x :: xs).forM job) s u s' ↔ ∃ s₁, (job x).Ends s () s₁ ∧ Ends (xs.forM job) s₁ () s' := by
  have hcons : (x :: xs).forM job = job x >>= fun _ => xs.forM job := rfl
  rw [hcons, ends_bind]
  exact ⟨fun ⟨_, s₁, h₁, h₂⟩ => ⟨s₁, h₁, h₂⟩, fun ⟨s₁, h₁, h₂⟩ => ⟨(), s₁, h₁, h₂⟩⟩

/-- Telling events. -/
@[simp] theorem ends_tellAll {events : List Event} {u : Unit} :
    Ends (tellAll events) s u s' ↔ s' = { s with events := s.events ++ events } := by
  induction events generalizing s with
  | nil =>
    have hnil : tellAll [] = (pure () : Job (StateM LoggedDisk) Unit) := rfl
    rw [hnil, ends_pure, List.append_nil]
    exact ⟨fun h => h.2, fun h => ⟨rfl, h⟩⟩
  | cons event events ih =>
    rw [tellAll, ends_forM_cons, ← tellAll]
    constructor
    · rintro ⟨s₁, htell, hrest⟩
      rw [ends_lift] at htell
      cases htell
      rw [ih.mp hrest]
      simp
    · rintro rfl
      refine ⟨{ s with events := s.events ++ [event] }, ends_lift.mpr rfl, ih.mpr ?_⟩
      simp

/-- A job for each element of a list, with the answers. -/
theorem ends_mapM_cons {job : α → Job (StateM LoggedDisk) β} {x : α} {xs : List α} {bs : List β} :
    Ends ((x :: xs).mapM job) s bs s' ↔
      ∃ b s₁ rest, (job x).Ends s b s₁ ∧ Ends (xs.mapM job) s₁ rest s' ∧ bs = b :: rest := by
  rw [List.mapM_cons, ends_bind]
  refine exists_congr fun b => exists_congr fun s₁ => ?_
  rw [ends_bind]
  constructor
  · rintro ⟨hjob, rest, s₂, hrest, hpure⟩
    obtain ⟨rfl, rfl⟩ := ends_pure.mp hpure
    exact ⟨rest, hjob, hrest, rfl⟩
  · rintro ⟨rest, hjob, hrest, rfl⟩
    exact ⟨hjob, rest, s', hrest, ends_pure.mpr ⟨rfl, rfl⟩⟩

/-! ## Jobs that fail -/

/-- A job on a tree in memory ends with a fault, in a state. -/
def Fails (job : Job (StateM LoggedDisk) α) (s : LoggedDisk) (fault : Fault) (s' : LoggedDisk) : Prop :=
  job.run.run s = (.error fault, s')

theorem fails_of_fault {job : Job (StateM LoggedDisk) α} {fault : Fault} (h : (job.run.run s).1 = .error fault) :
    job.Fails s fault (job.run.run s).2 := Prod.ext h rfl

theorem Fails.unique {job : Job (StateM LoggedDisk) α} {fault fault' : Fault} {t t' : LoggedDisk}
    (h : job.Fails s fault t) (h' : job.Fails s fault' t') : fault = fault' ∧ t = t' := by
  have hboth := h.symm.trans h'
  exact ⟨Except.error.inj (congrArg Prod.fst hboth), congrArg Prod.snd hboth⟩

/-- Nothing comes after a job that fails. -/
theorem Fails.bind {job : Job (StateM LoggedDisk) α} {fault : Fault} (h : job.Fails s fault s')
    (next : α → Job (StateM LoggedDisk) β) : (job >>= next).Fails s fault s' := by
  have hjob : job.run.run s = (.error fault, s') := h
  change ExceptT.run (job >>= next) s = _
  rw [run_bind, hjob]

theorem Ends.bind_fails {job : Job (StateM LoggedDisk) α} {next : α → Job (StateM LoggedDisk) β} {a : α}
    {s₁ : LoggedDisk}
    {fault : Fault} (h : job.Ends s a s₁) (hnext : (next a).Fails s₁ fault s') : (job >>= next).Fails s fault s' :=
  (run_bind_of_ends h next).trans hnext

theorem Ends.of_bind_fails {job : Job (StateM LoggedDisk) α} {next : α → Job (StateM LoggedDisk) β} {a : α}
    {s₁ : LoggedDisk}
    {fault : Fault} (h : job.Ends s a s₁) (hbind : (job >>= next).Fails s fault s') : (next a).Fails s₁ fault s' :=
  (run_bind_of_ends h next).symm.trans hbind

/-- What fails is the job itself when only an answer comes after it. -/
theorem Fails.of_bind_pure {job : Job (StateM LoggedDisk) α} {answer : α → β} {fault : Fault}
    (h : (job >>= fun a => pure (answer a)).Fails s fault s') : job.Fails s fault s' := by
  change ExceptT.run (job >>= fun a => pure (answer a)) s = (.error fault, s') at h
  rw [run_bind] at h
  cases hjob : job.run.run s with
  | mk result s₁ =>
    rw [hjob] at h
    cases result with
    | ok a => cases h
    | error fault' =>
      cases h
      exact hjob

/-! ## The faults of a job -/

/-- A job fails with faults of some kind only. -/
def FailsOnly (P : Fault → Prop) (job : Job (StateM LoggedDisk) α) :
    Prop := ∀ s fault s', job.Fails s fault s' → P fault

namespace FailsOnly

variable {P : Fault → Prop}

theorem pure (a : α) : FailsOnly P (Pure.pure a) := by
  intro s fault s' h
  cases h

theorem lift (step : StateM LoggedDisk α) : FailsOnly P (ExceptT.lift step) := by
  intro s fault s' h
  cases h

theorem ofResult {result : Except Fault α} (h : ∀ fault, result = .error fault → P fault) :
    FailsOnly P (InteropBindings.ofResult result) := by
  intro s fault s' hfails
  cases hfails
  exact h fault rfl

/-- An operation that may be refused. -/
theorem allowed {fault : Refusal → Fault} (h : ∀ reason, P (fault reason))
    (operation : StateM LoggedDisk (Except Refusal α)) :
    FailsOnly P (InteropBindings.allowed fault operation) := by
  intro s fault' s' hfails
  have hrun : ((operation.run s).1.mapError fault, (operation.run s).2) = (.error fault', s') := hfails
  cases hop : (operation.run s).1 with
  | ok a =>
    rw [hop] at hrun
    cases hrun
  | error reason =>
    rw [hop] at hrun
    cases hrun
    exact h reason

/-- **Jobs in a row** fail with the faults of both. -/
theorem bind {job : Job (StateM LoggedDisk) α} {next : α → Job (StateM LoggedDisk) β} (h : FailsOnly P job)
    (hnext : ∀ a, FailsOnly P (next a)) : FailsOnly P (job >>= next) := by
  intro s fault s' hfails
  change ExceptT.run (job >>= next) s = (.error fault, s') at hfails
  rw [run_bind] at hfails
  cases hjob : job.run.run s with
  | mk result s₁ =>
    rw [hjob] at hfails
    cases result with
    | ok a => exact hnext a s₁ fault s' hfails
    | error fault' =>
      cases hfails
      exact h s fault _ hjob

theorem forM {job : α → Job (StateM LoggedDisk) Unit} (h : ∀ a, FailsOnly P (job a)) (xs : List α) :
    FailsOnly P (xs.forM job) := by
  induction xs with
  | nil => exact .pure ()
  | cons x xs ih => exact .bind (h x) fun _ => ih

theorem mapM {job : α → Job (StateM LoggedDisk) β} (h : ∀ a, FailsOnly P (job a)) (xs : List α) :
    FailsOnly P (xs.mapM job) := by
  induction xs with
  | nil => exact .pure []
  | cons x xs ih =>
    rw [List.mapM_cons]
    exact .bind (h x) fun _ => .bind ih fun _ => .pure _

end FailsOnly

end Job

/-! ## Relations between the states of a job -/

/-- A relation holds between the states before and after some steps. -/
def Respects (R : LoggedDisk → LoggedDisk → Prop) (steps : StateM LoggedDisk α) : Prop := ∀ s, R s (steps.run s).2

namespace Respects

variable {R : LoggedDisk → LoggedDisk → Prop} [Std.Refl R] [Trans R R R]

omit [Trans R R R] in
theorem pure (a : α) : Respects R (Pure.pure a) := fun s => Std.Refl.refl s

omit [Trans R R R] in
theorem ask (question : Disk → α) : Respects R (LoggedDisk.ask question) := fun s => Std.Refl.refl s

omit [Std.Refl R] in
/-- **Steps in a row** respect a relation when all of them do. -/
theorem bind {steps : StateM LoggedDisk α} {next : α → StateM LoggedDisk β} (h : Respects R steps)
    (hnext : ∀ a, Respects R (next a)) : Respects R (steps >>= next) := fun s =>
  Trans.trans (h s) (hnext (steps.run s).1 (steps.run s).2)

omit [Std.Refl R] in
theorem bind_of {steps : StateM LoggedDisk α} {next : α → StateM LoggedDisk β} (h : Respects R steps)
    (hnext : ∀ s, Respects R (next (steps.run s).1)) : Respects R (steps >>= next) := fun s =>
  Trans.trans (h s) (hnext s (steps.run s).2)

omit [Std.Refl R] [Trans R R R] in
/-- A relation that the steps of a job respect holds between the states of the job. -/
theorem of_ends {job : Job (StateM LoggedDisk) α} (h : Respects R job.run) {a : α} (hjob : job.Ends s a s') :
    R s s' := by
  have hs := h s
  rw [hjob] at hs
  exact hs

/-- A relation that jobs for each element of a list respect when they end well holds between the states of all of them.
-/
theorem of_ends_forM {job : α → Job (StateM LoggedDisk) Unit} {xs : List α} {u : Unit}
    (hjob : ∀ x ∈ xs, ∀ s s', (job x).Ends s () s' → R s s') (h : Job.Ends (xs.forM job) s u s') : R s s' := by
  induction xs generalizing s with
  | nil =>
    obtain ⟨_, rfl⟩ : u = () ∧ s' = s := Job.ends_pure.mp h
    exact Std.Refl.refl s'
  | cons x xs ih =>
    obtain ⟨s₁, hx, hxs⟩ := Job.ends_forM_cons.mp h
    exact Trans.trans (hjob x List.mem_cons_self s s₁ hx) (ih (fun y hy => hjob y (List.mem_cons_of_mem _ hy)) hxs)

/-- The same with answers. -/
theorem of_ends_mapM {job : α → Job (StateM LoggedDisk) β} {xs : List α} {bs : List β}
    (hjob : ∀ x ∈ xs, ∀ s b s', (job x).Ends s b s' → R s s') (h : Job.Ends (xs.mapM job) s bs s') : R s s' := by
  induction xs generalizing s bs with
  | nil =>
    rw [List.mapM_nil, Job.ends_pure] at h
    obtain ⟨_, rfl⟩ := h
    exact Std.Refl.refl s'
  | cons x xs ih =>
    obtain ⟨b, s₁, rest, hx, hxs, _⟩ := Job.ends_mapM_cons.mp h
    exact Trans.trans (hjob x List.mem_cons_self s b s₁ hx) (ih (fun y hy => hjob y (List.mem_cons_of_mem _ hy)) hxs)

omit [Trans R R R] in
theorem result (r : Except Fault α) : Respects R (Pure.pure r : StateM LoggedDisk (Except Fault α)) := pure r

theorem lift {steps : StateM LoggedDisk α} (h : Respects R steps) :
    Respects R (ExceptT.lift steps : Job (StateM LoggedDisk) α).run := bind h fun _ => pure _

theorem allowed {fault : Refusal → Fault} {steps : StateM LoggedDisk (Except Refusal α)} (h : Respects R steps) :
    Respects R (InteropBindings.allowed fault steps).run := bind h fun _ => pure _

theorem bind_job {job : Job (StateM LoggedDisk) α} {next : α → Job (StateM LoggedDisk) β} (h : Respects R job.run)
    (hnext : ∀ a, Respects R (next a).run) : Respects R (job >>= next).run := by
  have hresult : ∀ result, Respects R (ExceptT.bindCont next result) := by
    intro result
    cases result with
    | ok a => exact hnext a
    | error fault => exact pure _
  exact bind h hresult

end Respects

end InteropBindings
