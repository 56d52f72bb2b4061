import InteropBindings.Proofs.Disk.Overwriting

/-!
# What writing files leaves alone

On the way of a path lie the places that its components lead to before the last one. Where a file is, directories lie on
its way (`Disk.IsPlain.entryAt_of_isAround`). Directories are made on the way of the files that are written and nowhere
else (`Disk.KeepsTo`), so writes to different places determine the tree that they leave (`Disk.HoldsOnly`).
-/

namespace InteropBindings.Disk

open Text InteropBindings.Path

variable {d d' d'' : Disk} {place : Place} {p : Path} {ws : List Write} {written : Path → Prop}

/-! ## On the way -/

/-- Whether a place lies on the way of a path, before its end. -/
def IsAround (d : Disk) (p : Path) (place : Place) : Prop :=
  ∃ front rest, p.components = front ++ rest ∧ rest ≠ [] ∧ place = front.foldl Place.descend d.workingDirectory

theorem isAround_of_workingDirectory (h : d'.workingDirectory = d.workingDirectory) :
    d'.IsAround p place ↔ d.IsAround p place := by
  rw [IsAround, IsAround, h]

/-- What lies around a path lies around all that goes on from its parent. -/
theorem IsAround.of_prefix {q : Path} {around : List Component} {c : Component} (h : d.IsAround p place)
    (hp : p.components = around ++ [c]) (hq : around <+: q.components) (hne : around ≠ q.components) :
    d.IsAround q place := by
  obtain ⟨front, rest, hcomponents, hrest, rfl⟩ := h
  obtain ⟨more, last, rfl⟩ := (List.eq_nil_or_concat' rest).resolve_left hrest
  rw [hp, ← List.append_assoc] at hcomponents
  obtain ⟨rfl, _⟩ := List.append_inj' hcomponents rfl
  obtain ⟨after, hafter⟩ := hq
  refine ⟨front, more ++ after, by rw [← hafter, List.append_assoc], ?_, rfl⟩
  intro hnil
  obtain ⟨_, rfl⟩ := List.append_eq_nil_iff.mp hnil
  exact hne (by rw [← hafter, List.append_nil])

/-- A way leads to a directory. -/
theorem IsTree.directory_of_through (h : d.IsTree) {here : Place} {xs : List RawText}
    (hhere : d.entryAt here = some .directory) (hthrough : d.through here xs = some place) :
    d.entryAt place = some .directory := by
  induction xs generalizing here with
  | nil =>
    cases hthrough
    exact hhere
  | cons x xs ih =>
    simp only [through] at hthrough
    split at hthrough
    · exact ih hhere hthrough
    split at hthrough
    · exact ih (h.directory_dropLast hhere) hthrough
    split at hthrough
    · cases hthrough
    split at hthrough
    · next hdirectory => exact ih hdirectory hthrough
    · cases hthrough

/-- **On the way of a file** there are directories. -/
theorem IsPlain.entryAt_of_isAround (h : d.IsPlain) (hp : (d.fileAt? p).isSome) (haround : d.IsAround p place) :
    d.entryAt place = some .directory := by
  obtain ⟨q, hq⟩ := Option.isSome_iff_exists.mp hp
  obtain ⟨c, hresolve⟩ := fileAt?_eq_some_iff.mp hq
  rw [(isFollowed_of_resolve hresolve).resolve_eq] at hresolve
  obtain ⟨front, rest, hcomponents, hrest, rfl⟩ := haround
  have hstart : d.entryAt (startOf d.workingDirectory p) = some .directory := by
    rw [startOf]
    split
    · rfl
    · exact h.start
  by_cases hfront : front = []
  · rw [hfront]
    exact h.start
  -- Behind the start of the path, its pieces lead along the way.
  obtain ⟨steps, rfl, hsteps⟩ : ∃ steps, front = p.split.1.components ++ steps ∧ stepsOf p.text = steps ++ rest := by
    rw [components_eq, eq_comm, List.append_eq_append_iff] at hcomponents
    rcases hcomponents with ⟨more, hanchor, hmore⟩ | ⟨more, hmore, hsteps⟩
    · have hshort : p.split.1.components.length ≤ 1 := by cases p.split.1 <;> simp [Anchor.components]
      have hlength := congrArg List.length hanchor
      rw [List.length_append] at hlength
      have hpos := List.length_pos_iff.mpr hfront
      obtain rfl : more = [] := List.length_eq_zero_iff.mp (by omega)
      exact ⟨[], by rw [List.append_nil, hanchor, List.append_nil], by simpa using hmore.symm⟩
    · exact ⟨more, hmore, hsteps⟩
  rw [← filterMap_pieces, List.filterMap_eq_append_iff] at hsteps
  obtain ⟨xs, ys, hpieces, rfl, rfl⟩ := hsteps
  have hys : ys ≠ [] := by
    rintro rfl
    exact hrest rfl
  rw [hpieces] at hresolve
  obtain ⟨around, haround⟩ := h.linkFree.through_of_follow hresolve (.inl hys)
  rw [List.foldl_append, foldl_anchor, ← eq_foldl_of_through haround]
  exact h.directory_of_through hstart haround

/-! ## Trees that change along some paths only -/

/-- A tree in which directories were made on the way of some paths, and what stands at the end of these may be another
thing. -/
structure KeepsTo (written : Path → Prop) (d d' : Disk) : Prop where
  workingDirectory : d'.workingDirectory = d.workingDirectory
  becomes : ∀ place, d'.entryAt place = d.entryAt place ∨
    ((∃ p, written p ∧ d.IsAround p place) ∧ d.entryAt place = none ∧ d'.entryAt place = some .directory) ∨
    d.IsPlaceOf written place

namespace KeepsTo

theorem refl (written : Path → Prop) (d : Disk) : KeepsTo written d d := ⟨rfl, fun _ => .inl rfl⟩

theorem trans (h : KeepsTo written d d') (h' : KeepsTo written d' d'') : KeepsTo written d d'' := by
  refine ⟨h'.workingDirectory.trans h.workingDirectory, fun place => ?_⟩
  rcases h'.becomes place with hsame' | ⟨⟨p, hp, haround⟩, hnone', hmade'⟩ | ⟨p, hp, hplace⟩
  · rw [hsame']
    exact h.becomes place
  · rw [isAround_of_workingDirectory h.workingDirectory] at haround
    rcases h.becomes place with hsame | ⟨_, _, hmade⟩ | hwritten
    · exact .inr (.inl ⟨⟨p, hp, haround⟩, hsame ▸ hnone', hmade'⟩)
    · rw [hmade] at hnone'
      cases hnone'
    · exact .inr (.inr hwritten)
  · rw [placeOf, h.workingDirectory] at hplace
    exact .inr (.inr ⟨p, hp, hplace⟩)

/-- Making a directory on the way of a path. -/
theorem makeDirectory (hlinks : d.LinkFree) {q : Path} {rest : List Component} (hmake : d.makeDirectory q = .ok d')
    (hp : written p) (hcomponents : p.components = q.components ++ rest) (hrest : rest ≠ []) :
    KeepsTo written d d' := by
  rw [makeDirectory_eq_map] at hmake
  cases hmade : d.madeAt q with
  | error reason => rw [hmade] at hmake; cases hmake
  | ok made =>
    rw [hmade] at hmake
    cases hmake
    obtain ⟨hplace, hroot, hnone⟩ := hlinks.of_madeAt hmade
    refine ⟨rfl, fun place => ?_⟩
    rw [entryAt_put d made place _ hroot]
    split
    · next heq =>
      subst heq
      exact .inr (.inl ⟨⟨p, hp, q.components, rest, hcomponents, hrest, hplace⟩, hnone, rfl⟩)
    · exact .inl rfl

/-- Writing a file. -/
theorem write (hlinks : d.LinkFree) {c : Content} (hwrite : d.write p c = .ok d') (hp : written p) :
    KeepsTo written d d' := by
  rw [write_eq_map] at hwrite
  cases hwritten : d.writtenAt p with
  | error reason => rw [hwritten] at hwrite; cases hwrite
  | ok changed =>
    rw [hwritten] at hwrite
    cases hwrite
    obtain ⟨hplace, hroot, _⟩ := hlinks.of_writtenAt hwritten
    refine ⟨rfl, fun place => ?_⟩
    rw [entryAt_put d changed place _ hroot]
    split
    · next heq => exact .inr (.inr ⟨p, hp, hplace.symm.trans heq⟩)
    · exact .inl rfl

end KeepsTo

/-! ## Trees that hold some files besides -/

/-- **A tree that holds some files besides** what another one holds: those, the directories on the way of each, and
nothing else that is different. -/
structure HoldsOnly (ws : List Write) (d d' : Disk) : Prop where
  workingDirectory : d'.workingDirectory = d.workingDirectory
  texts : ∀ w ∈ ws, d'.entryAt (d.placeOf w.1) = some (.file (.text w.2)) ∧ d'.read w.1 = .ok w.2
  around : ∀ w ∈ ws, ∀ place, d.IsAround w.1 place →
    (d.entryAt place = none ∨ d.entryAt place = some .directory) ∧ d'.entryAt place = some .directory
  others : ∀ place, (∀ w ∈ ws, d.placeOf w.1 ≠ place ∧ ¬ d.IsAround w.1 place) → d'.entryAt place = d.entryAt place

/-- What such a tree holds is determined. -/
theorem HoldsOnly.entryAt_eq (h : HoldsOnly ws d d') (h' : HoldsOnly ws d d'') (place : Place) :
    d'.entryAt place = d''.entryAt place := by
  by_cases hplace : ∃ w ∈ ws, d.placeOf w.1 = place
  · obtain ⟨w, hw, rfl⟩ := hplace
    rw [(h.texts w hw).1, (h'.texts w hw).1]
  by_cases haround : ∃ w ∈ ws, d.IsAround w.1 place
  · obtain ⟨w, hw, hplace⟩ := haround
    rw [(h.around w hw place hplace).2, (h'.around w hw place hplace).2]
  · have hothers : ∀ w ∈ ws, d.placeOf w.1 ≠ place ∧ ¬ d.IsAround w.1 place :=
      fun w hw => ⟨fun he => hplace ⟨w, hw, he⟩, fun he => haround ⟨w, hw, he⟩⟩
    rw [h.others place hothers, h'.others place hothers]

/-- **Writes to different places** leave nothing but their texts, and directories on their way. -/
theorem WritesAll.holdsOnly (h : WritesAll d ws d') (hkeeps : KeepsTo (· ∈ ws.map Prod.fst) d d') (hlinks : d.LinkFree)
    (hplain : d'.IsPlain) (hdistinct : ws.Pairwise fun w v => d.placeOf w.1 ≠ d.placeOf v.1) : HoldsOnly ws d d' := by
  refine ⟨hkeeps.workingDirectory, fun w hw => ?_, fun w hw place haround => ?_, fun place hothers => ?_⟩
  · obtain ⟨before, after, rfl⟩ := List.append_of_mem hw
    have hlater : d.lastText (d.placeOf w.1) after = none := by
      rw [lastText_eq_none_iff]
      exact fun v hv => ((List.pairwise_cons.mp (List.pairwise_append.mp hdistinct).2.1).1 v hv).symm
    have hlast : d.lastText (d.placeOf w.1) (before ++ w :: after) = some w.2 := by
      rw [lastText_append, lastText, hlater, if_pos rfl]
      rfl
    have hentry := h.entryAt_of_lastText hlinks hlast
    obtain ⟨place, hplace⟩ := Option.isSome_iff_exists.mp (h.isSome_fileAt? hw)
    have hthere : place = d.placeOf w.1 := by
      rw [hplain.linkFree.fileAt? hplace, placeOf, placeOf, hkeeps.workingDirectory]
    exact ⟨hentry, read_of_fileAt? hplace (hthere ▸ hentry)⟩
  · have hdirectory : d'.entryAt place = some .directory :=
      hplain.entryAt_of_isAround (h.isSome_fileAt? hw)
        ((isAround_of_workingDirectory hkeeps.workingDirectory).mpr haround)
    refine ⟨?_, hdirectory⟩
    cases hentry : d.entryAt place with
    | none => exact .inl rfl
    | some e =>
      obtain ⟨e', he', hbecomes⟩ := h.grows.becomes place e hentry
      rw [hdirectory] at he'
      cases he'
      cases hbecomes
      exact .inr rfl
  · rcases hkeeps.becomes place with hsame | ⟨⟨p, hp, haround⟩, _⟩ | ⟨p, hp, hplace⟩
    · exact hsame
    · obtain ⟨w, hw, rfl⟩ := List.mem_map.mp hp
      exact absurd haround (hothers w hw).2
    · obtain ⟨w, hw, rfl⟩ := List.mem_map.mp hp
      exact absurd hplace (hothers w hw).1

end InteropBindings.Disk
