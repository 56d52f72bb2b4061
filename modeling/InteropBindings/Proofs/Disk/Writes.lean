import InteropBindings.Proofs.Disk.Growth

/-!
# Files written one after the other

Several files are written, each after directories have been made for it. Two paths may lead to the same file, so what is
read in the end is what the last write to that file has left there (`Disk.WritesAll.exists_last`).
-/

namespace InteropBindings.Disk

variable {d d' d'' : Disk}

/-- What is written, and under which path. -/
abbrev Write := Path × String

/-- A file is written after directories have been made. -/
def Stores (d : Disk) (w : Write) (d' : Disk) : Prop := ∃ d₁, d.KeepsFiles d₁ ∧ d₁.write w.1 (.text w.2) = .ok d'

/-- Files are written one after the other. -/
def WritesAll : Disk → List Write → Disk → Prop
  | d, [], d' => d' = d
  | d, w :: ws, d' => ∃ d₁, d.Stores w d₁ ∧ WritesAll d₁ ws d'

/-- Two paths lead to the same file. -/
def SameFile (d : Disk) (p q : Path) : Prop := (d.fileAt? p).isSome ∧ d.fileAt? p = d.fileAt? q

instance (d : Disk) (p q : Path) : Decidable (d.SameFile p q) :=
  inferInstanceAs (Decidable ((d.fileAt? p).isSome ∧ d.fileAt? p = d.fileAt? q))

namespace SameFile

variable {p q r : Path}

theorem symm (h : d.SameFile p q) : d.SameFile q p := ⟨h.2 ▸ h.1, h.2.symm⟩

theorem trans (h : d.SameFile p q) (h' : d.SameFile q r) : d.SameFile p r := ⟨h.1, h.2.trans h'.2⟩

/-- One file holds one text. -/
theorem read_eq (h : d.SameFile p q) : d.read p = d.read q := by
  obtain ⟨place, hp⟩ := Option.isSome_iff_exists.mp h.1
  have hq : d.fileAt? q = some place := h.2 ▸ hp
  obtain ⟨c, hresolve, hentry⟩ := exists_of_fileAt? hp
  obtain ⟨c', hresolve', hentry'⟩ := exists_of_fileAt? hq
  obtain rfl : c' = c := by
    rw [hentry] at hentry'
    cases hentry'
    rfl
  rw [read, read, find, find, hresolve, hresolve']

end SameFile

/-! ## One write -/

/-- A write changes one file, and the path leads to it. -/
theorem Stores.exists {w : Write} (h : d.Stores w d') :
    d.Grows d' ∧ ∃ place, d'.fileAt? w.1 = some place ∧ d'.entryAt place = some (.file (.text w.2)) ∧
      ∀ q c, q ≠ place → d.entryAt q = some (.file c) → d'.entryAt q = some (.file c) := by
  obtain ⟨d₁, hkeeps, hwrite⟩ := h
  obtain ⟨hg, place, hplace, hentry, hothers⟩ := exists_of_write hwrite
  refine ⟨hkeeps.toGrows.trans hg, place, hplace, hentry, fun q c hq hc => ?_⟩
  rw [hothers q hq]
  exact hkeeps.entryAt hc

/-! ## Several writes -/

/-- A list can be cut at the last of its elements with a property. -/
theorem exists_last_split {α : Type} {p : α → Prop} {xs : List α} (h : ∃ x ∈ xs, p x) :
    ∃ before x after, xs = before ++ x :: after ∧ p x ∧ ∀ y ∈ after, ¬ p y := by
  induction xs with
  | nil =>
    obtain ⟨_, hx, _⟩ := h
    cases hx
  | cons x xs ih =>
    by_cases hrest : ∃ y ∈ xs, p y
    · obtain ⟨before, y, after, rfl, hy, hlast⟩ := ih hrest
      exact ⟨x :: before, y, after, rfl, hy, hlast⟩
    · obtain ⟨y, hy, hpy⟩ := h
      rcases List.mem_cons.mp hy with rfl | hy
      · exact ⟨[], y, xs, rfl, hpy, fun z hz hpz => hrest ⟨z, hz, hpz⟩⟩
      · exact absurd ⟨y, hy, hpy⟩ hrest

namespace WritesAll

variable {ws vs : List Write}

/-- Writes in two parts. -/
theorem append_iff : WritesAll d (ws ++ vs) d' ↔ ∃ d₁, WritesAll d ws d₁ ∧ WritesAll d₁ vs d' := by
  induction ws generalizing d with
  | nil =>
    constructor
    · exact fun h => ⟨d, rfl, h⟩
    · rintro ⟨_, rfl, h⟩
      exact h
  | cons w ws ih =>
    constructor
    · rintro ⟨d₁, hw, hrest⟩
      obtain ⟨d₂, hws, hvs⟩ := ih.mp hrest
      exact ⟨d₂, ⟨d₁, hw, hws⟩, hvs⟩
    · rintro ⟨d₂, ⟨d₁, hw, hws⟩, hvs⟩
      exact ⟨d₁, hw, ih.mpr ⟨d₂, hws, hvs⟩⟩

/-- A tree grows with all writes. -/
theorem grows (h : WritesAll d ws d') : d.Grows d' := by
  induction ws generalizing d with
  | nil => exact h ▸ .refl d
  | cons w ws ih =>
    obtain ⟨d₁, hw, hrest⟩ := h
    exact hw.exists.1.trans (ih hrest)

/-- In the end there is a file under each path that was written to. -/
theorem isSome_fileAt? (h : WritesAll d ws d') {w : Write} (hw : w ∈ ws) : (d'.fileAt? w.1).isSome := by
  obtain ⟨before, after, rfl⟩ := List.append_of_mem hw
  obtain ⟨d₁, _, d₂, hstores, hafter⟩ := append_iff.mp h
  obtain ⟨_, place, hplace, _⟩ := hstores.exists
  rw [hafter.grows.fileAt? hplace]
  rfl

/-- A file that no write leads to keeps its content. -/
theorem entryAt (h : WritesAll d ws d') {place : Place} {c : Content} (hc : d.entryAt place = some (.file c))
    (hothers : ∀ w ∈ ws, d'.fileAt? w.1 ≠ some place) : d'.entryAt place = some (.file c) := by
  induction ws generalizing d with
  | nil => exact h ▸ hc
  | cons w ws ih =>
    obtain ⟨d₁, hstores, hrest⟩ := h
    obtain ⟨_, q, hq, _, hkept⟩ := hstores.exists
    refine ih hrest (hkept place c ?_ hc) fun v hv => hothers v (List.mem_cons_of_mem _ hv)
    rintro rfl
    exact hothers w List.mem_cons_self (hrest.grows.fileAt? hq)

/-- What was written stays when no later write leads to the same file. -/
theorem read_of_last {before after : List Write} {w : Write} (h : WritesAll d (before ++ w :: after) d')
    (hlast : ∀ v ∈ after, ¬ d'.SameFile v.1 w.1) : d'.read w.1 = .ok w.2 := by
  obtain ⟨d₁, _, d₂, hstores, hafter⟩ := append_iff.mp h
  obtain ⟨_, place, hplace, hentry, _⟩ := hstores.exists
  have hfinal : d'.fileAt? w.1 = some place := hafter.grows.fileAt? hplace
  refine read_of_fileAt? hfinal (hafter.entryAt hentry fun v hv hv' => hlast v hv ⟨?_, ?_⟩)
  · rw [hv']
    rfl
  · rw [hv', hfinal]

/-- **A file that was written to** holds what the last write to it has left there. -/
theorem exists_last (h : WritesAll d ws d') {p : Path} (hp : ∃ w ∈ ws, d'.SameFile w.1 p) :
    ∃ before w after, ws = before ++ w :: after ∧ d'.SameFile w.1 p ∧ (∀ v ∈ after, ¬ d'.SameFile v.1 p) ∧
      d'.read p = .ok w.2 := by
  obtain ⟨before, w, after, rfl, hsame, hlast⟩ := exists_last_split hp
  refine ⟨before, w, after, rfl, hsame, hlast, ?_⟩
  rw [← hsame.read_eq]
  exact h.read_of_last fun v hv hsame' => hlast v hv (hsame'.trans hsame)

end WritesAll

end InteropBindings.Disk
