import InteropBindings.Proofs.Disk.Places

/-!
# Ways through directories

Pieces of a path that all stand for directories lead through them (`Disk.through`). Where there are no links, a path
leads to a directory exactly when its pieces do (`Disk.LinkFree.resolve_eq_directory_iff`).

- a path to a directory stays one when the tree grows (`Disk.LinkFree.resolve_directory`);
- what stands in front of a slash in a path to a file is a path to a directory
  (`Disk.LinkFree.exists_directory_of_append`);
- a name followed from a path to a directory leads to what stands there under the name, unless the text gets too long
  (`Disk.LinkFree.resolve_join`).
-/

namespace InteropBindings.Disk

open Text InteropBindings.Path

variable {d d' : Disk} {here place : Place}

/-- Where pieces lead that all stand for directories. -/
def through (d : Disk) : Place → List RawText → Option Place
  | here, [] => some here
  | here, piece :: rest =>
    if staysHere piece then through d here rest
    else if piece == ".." then through d here.dropLast rest
    else if 255 < piece.size then none
    else if d.entryAt (here ++ [piece]) = some .directory then through d (here ++ [piece]) rest
    else none

theorem through_append (d : Disk) (here : Place) (xs ys : List RawText) :
    d.through here (xs ++ ys) = (d.through here xs).bind fun place => d.through place ys := by
  induction xs generalizing here with
  | nil => rfl
  | cons x xs ih =>
    simp only [List.cons_append, through, ih]
    repeat' split
    all_goals rfl

/-- A way over a piece stays, goes up, or goes into a directory. -/
theorem through_cons_iff {piece : RawText} {rest : List RawText} : d.through here (piece :: rest) = some place ↔
    staysHere piece = true ∧ d.through here rest = some place ∨
    piece = ".." ∧ d.through here.dropLast rest = some place ∨
    LeadsDown piece ∧ d.entryAt (here ++ [piece]) = some .directory ∧
      d.through (here ++ [piece]) rest = some place := by
  constructor
  · intro h
    rw [through] at h
    split at h
    · next hstays => exact .inl ⟨hstays, h⟩
    next hstays =>
    split at h
    · next hup => exact .inr (.inl ⟨eq_of_beq hup, h⟩)
    next hup =>
    split at h
    · cases h
    next hlong =>
    split at h
    · next hentry =>
      have hdown : LeadsDown piece := ⟨by simpa using hstays, by simpa using hup, Nat.not_lt.mp hlong⟩
      exact .inr (.inr ⟨hdown, hentry, h⟩)
    · cases h
  · rintro (⟨hstays, h⟩ | ⟨rfl, h⟩ | ⟨hdown, hentry, h⟩)
    · rw [through, if_pos hstays, h]
    · exact h
    · have hshort : ¬ 255 < piece.size := Nat.not_lt.mpr hdown.short
      rw [through, hdown.leaves, hdown.notUp, if_neg hshort, if_pos hentry]
      exact h

/-- A way stays when the tree grows. -/
theorem Grows.through (hg : d.Grows d') {xs : List RawText} (h : d.through here xs = some place) :
    d'.through here xs = some place := by
  induction xs generalizing here with
  | nil => exact h
  | cons x xs ih =>
    rw [through_cons_iff] at h ⊢
    obtain ⟨hstays, h⟩ | ⟨hup, h⟩ | ⟨hdown, hentry, h⟩ := h
    · exact .inl ⟨hstays, ih h⟩
    · exact .inr (.inl ⟨hup, ih h⟩)
    · exact .inr (.inr ⟨hdown, hg.directory hentry, ih h⟩)

/-- What follows behind a way is followed from its end. -/
theorem follow_append {last : Bool} {onLink : Place → List RawText → Except Refusal Target} {xs : List RawText}
    (h : d.through here xs = some place) (ys : List RawText) :
    d.follow last onLink here (xs ++ ys) = d.follow last onLink place ys := by
  induction xs generalizing here with
  | nil =>
    cases h
    rfl
  | cons x xs ih =>
    rw [List.cons_append]
    obtain ⟨hstays, h⟩ | ⟨rfl, h⟩ | ⟨hdown, hentry, h⟩ := through_cons_iff.mp h
    · rw [follow_of_stays hstays, ih h]
    · rw [follow_up, ih h]
    · rw [hdown.follow_directory hentry, ih h]

/-- Where there are no links, what is in front of the last piece leads through directories, and all of it if it leads to
one. -/
theorem LinkFree.through_of_follow (hlinks : d.LinkFree) {last : Bool}
    {onLink : Place → List RawText → Except Refusal Target} {xs ys : List RawText} {e : Entry}
    (h : d.follow last onLink here (xs ++ ys) = .ok (.entry place e)) (hend : ys ≠ [] ∨ e = .directory) :
    ∃ around, d.through here xs = some around := by
  induction xs generalizing here with
  | nil => exact ⟨here, rfl⟩
  | cons x xs ih =>
    rw [List.cons_append] at h
    generalize hrest : xs ++ ys = rest at h ih
    cases follow_eq_ok_iff.mp h with
    | stays hstays h =>
      obtain ⟨around, haround⟩ := ih h.follow_eq
      exact ⟨around, through_cons_iff.mpr (.inl ⟨hstays, haround⟩)⟩
    | up h => exact ih h.follow_eq
    | directory hdown hentry h =>
      obtain ⟨around, haround⟩ := ih h.follow_eq
      exact ⟨around, through_cons_iff.mpr (.inr (.inr ⟨hdown, hentry, haround⟩))⟩
    | file =>
      -- A file at the very end is no directory, and nothing goes on behind it.
      obtain ⟨-, rfl⟩ := List.append_eq_nil_iff.mp hrest
      simp at hend
    | link _ hentry => exact absurd hentry (hlinks _ _)
    | through _ hentry => exact absurd hentry (hlinks _ _)

/-! ## Paths -/

/-- A path that is followed at all: it is not empty, not too long, and has no zero in it. -/
structure IsFollowed (p : Path) : Prop where
  zero : 0 ∉ p.text.toList
  nonempty : p.text ≠ ""
  short : p.text.size < 4096

/-- Following a path. -/
theorem IsFollowed.resolve_eq {p : Path} (h : IsFollowed p) (d : Disk) (last : Bool) :
    d.resolve last p = d.follow last (d.followLinks last 40) (startOf d.workingDirectory p) (pieces p) := by
  have hzero : ¬ p.text.toList.contains 0 = true := by simpa using h.zero
  have hempty : ¬ p.text.isEmpty = true := by simpa using h.nonempty
  rw [resolve, if_neg hzero, if_neg hempty, if_neg (Nat.not_le.mpr h.short), followLinks]

/-- A path that leads somewhere is followed. -/
theorem isFollowed_of_resolve {last : Bool} {p : Path} {t : Target} (h : d.resolve last p = .ok t) : IsFollowed p := by
  unfold resolve at h
  split at h
  · cases h
  next hzero =>
  split at h
  · cases h
  next hempty =>
  split at h
  · cases h
  next hlong =>
  exact ⟨by simpa using hzero, by simpa using hempty, Nat.not_le.mp hlong⟩

theorem IsFollowed.of_append {p q : Path} {rest : RawText} (h : IsFollowed p) (htext : p.text = q.text ++ rest)
    (hq : q.text ≠ "") : IsFollowed q := by
  refine ⟨fun hzero => h.zero ?_, hq, ?_⟩
  · rw [htext, RawText.toList_append]
    exact List.mem_append_left _ hzero
  · have hshort := h.short
    rw [htext, RawText.size_append] at hshort
    omega

/-- **Where there are no links**, a path leads to a directory when its pieces lead through directories. -/
theorem LinkFree.resolve_eq_directory_iff (hlinks : d.LinkFree) {last : Bool} {p : Path} :
    d.resolve last p = .ok (.entry place .directory) ↔
      IsFollowed p ∧ d.through (startOf d.workingDirectory p) (pieces p) = some place := by
  constructor
  · intro h
    have hp := isFollowed_of_resolve h
    rw [hp.resolve_eq, ← List.append_nil (pieces p)] at h
    obtain ⟨around, haround⟩ := hlinks.through_of_follow h (.inr rfl)
    rw [follow_append haround] at h
    cases h
    exact ⟨hp, haround⟩
  · rintro ⟨hp, hthrough⟩
    rw [hp.resolve_eq, ← List.append_nil (pieces p), follow_append hthrough]
    rfl

/-- A way leads to the place that its steps name. -/
theorem eq_foldl_of_through {xs : List RawText} (h : d.through here xs = some place) :
    place = (xs.filterMap stepOf?).foldl Place.descend here := by
  induction xs generalizing here with
  | nil =>
    cases h
    rfl
  | cons x xs ih =>
    simp only [through] at h
    rw [List.filterMap_cons, stepOf?_eq]
    split at h
    · next hstays => rw [if_pos hstays]; exact ih h
    next hstays =>
    rw [if_neg hstays]
    split at h
    · next hup => rw [if_pos (by simpa using hup)]; exact ih h
    next hup =>
    rw [if_neg (by simpa using hup)]
    split at h
    · cases h
    split at h
    · exact ih h
    · cases h

/-- A path to a directory leads to the place that its components name. -/
theorem LinkFree.eq_placeOf (hlinks : d.LinkFree) {last : Bool} {p : Path}
    (h : d.resolve last p = .ok (.entry place .directory)) : place = d.placeOf p :=
  hlinks.place_of_resolve h

/-- A path to a directory leads there also when the tree has grown. -/
theorem LinkFree.resolve_directory (hlinks : d.LinkFree) (hg : d.Grows d') {last : Bool} {p : Path}
    (h : d.resolve last p = .ok (.entry place .directory)) : d'.resolve last p = .ok (.entry place .directory) := by
  obtain ⟨hp, hthrough⟩ := hlinks.resolve_eq_directory_iff.mp h
  exact (hg.linkFree hlinks).resolve_eq_directory_iff.mpr ⟨hp, by rw [hg.workingDirectory]; exact hg.through hthrough⟩

theorem startOf_append (here : Place) {q : Path} (hq : q.text ≠ "") (rest : RawText) :
    startOf here ⟨q.text ++ rest⟩ = startOf here q := by
  have habsolute : isAbsolute ⟨q.text ++ rest⟩ = q.isAbsolute := by
    obtain ⟨c, cs, htext⟩ : ∃ c cs, q.text.toList = c :: cs :=
      List.exists_cons_of_ne_nil (by simpa using hq)
    rw [isAbsolute, isAbsolute, RawText.beginsWith, RawText.beginsWith, RawText.toList_append, htext]
    rfl
  rw [startOf, startOf, habsolute]

/-- **In a path to a file**, what stands in front of a slash is a path to a directory. -/
theorem LinkFree.exists_directory_of_append (hlinks : d.LinkFree) {p q : Path} {rest : RawText}
    (hp : (d.fileAt? p).isSome) (htext : p.text = q.text ++ "/" ++ rest) (hq : q.text ≠ "") :
    ∃ around, ∀ last, d.resolve last q = .ok (.entry around .directory) := by
  obtain ⟨place, hplace⟩ := Option.isSome_iff_exists.mp hp
  obtain ⟨c, hresolve⟩ := fileAt?_eq_some_iff.mp hplace
  have hfollowed := isFollowed_of_resolve hresolve
  have hstart : startOf d.workingDirectory p = startOf d.workingDirectory q := by
    rw [← startOf_append _ hq ("/" ++ rest), ← RawText.append_assoc, ← htext]
  have hpieces : pieces p = pieces q ++ RawText.segments slash rest := by
    rw [pieces, htext]
    exact RawText.segments_append slash q.text rest
  have hrest : RawText.segments slash rest ≠ [] := RawText.segments_ne_nil slash rest
  rw [hfollowed.resolve_eq, hpieces, hstart] at hresolve
  obtain ⟨around, haround⟩ := hlinks.through_of_follow hresolve (.inl hrest)
  rw [RawText.append_assoc] at htext
  exact ⟨around, fun last => hlinks.resolve_eq_directory_iff.mpr ⟨hfollowed.of_append htext hq, haround⟩⟩

/-! ## Names -/

/-- A name under which something can stand in a directory. -/
def IsEntryName (name : RawText) : Prop := IsName name ∧ 0 ∉ name.toList ∧ name.size ≤ 255

instance : DecidablePred IsEntryName := fun name =>
  inferInstanceAs (Decidable (IsName name ∧ 0 ∉ name.toList ∧ name.size ≤ 255))

/-- A name stands for no other step. -/
theorem not_step_of_isName {name : RawText} (h : IsName name) : staysHere name = false ∧ (name == "..") = false := by
  obtain ⟨hempty, hpoint, hparent, _⟩ := h
  simp [staysHere, hempty, hpoint, hparent]

theorem IsEntryName.leadsDown {name : RawText} (h : IsEntryName name) : LeadsDown name :=
  ⟨(not_step_of_isName h.1).1, (not_step_of_isName h.1).2, h.2.2⟩

theorem LeadsDown.isEntryName {name : RawText} (h : LeadsDown name) (hslash : slash ∉ name.toList)
    (hzero : 0 ∉ name.toList) : IsEntryName name := by
  obtain ⟨hempty, hpoint⟩ : name ≠ "" ∧ name ≠ "." := by simpa [staysHere] using h.leaves
  exact ⟨⟨hempty, hpoint, ne_of_beq_false h.notUp, hslash⟩, hzero, h.short⟩

theorem text_join {dir : Path} {name : RawText} (hname : slash ∉ name.toList) :
    (dir.join name).text = dir.front ++ name := by
  rw [join, push_eq dir (isAbsolute_of_not_mem hname)]

/-- The pieces of a name followed from a path. -/
theorem exists_pieces_join {dir : Path} {name : RawText} (hdir : dir.text ≠ "") (hname : slash ∉ name.toList) :
    ∃ xs, pieces (dir.join name) = xs ++ [name] ∧ (pieces dir = xs ∨ pieces dir = xs ++ [RawText.ofString ""]) := by
  have hempty : dir.text.isEmpty = false := by simpa using hdir
  rw [pieces, text_join hname, front, hempty, Bool.false_or]
  by_cases hend : dir.text.endsWith "/" = true
  · obtain ⟨before, hbefore⟩ := List.isSuffixOf_iff_suffix.mp hend
    have htext : dir.text = RawText.ofList before ++ "/" := by
      rw [← RawText.toList_inj, ← hbefore]
      simp
    have hpieces : pieces dir = RawText.segments slash (RawText.ofList before) ++ [RawText.ofString ""] := by
      rw [pieces, htext, ← RawText.append_empty (RawText.ofList before ++ "/")]
      exact RawText.segments_append slash _ ""
    refine ⟨RawText.segments slash (RawText.ofList before), ?_, .inr hpieces⟩
    rw [if_pos hend, htext, ← RawText.segments_of_not_mem hname]
    exact RawText.segments_append slash _ name
  · refine ⟨pieces dir, ?_, .inl rfl⟩
    rw [if_neg hend, ← RawText.segments_of_not_mem hname]
    exact RawText.segments_append slash _ name

theorem exists_text_join (dir : Path) {name : RawText} (hname : slash ∉ name.toList) :
    ∃ between, (dir.join name).text = dir.text ++ (between ++ name) ∧ 0 ∉ between.toList := by
  rw [text_join hname, front]
  split
  · exact ⟨"", by simp, by decide⟩
  · exact ⟨"/", by rw [RawText.append_assoc], by decide⟩

theorem startOf_join {dir : Path} {name : RawText} (hdir : dir.text ≠ "") (hname : slash ∉ name.toList) (here : Place) :
    startOf here (dir.join name) = startOf here dir := by
  obtain ⟨between, htext, _⟩ := exists_text_join dir hname
  rw [← startOf_append here hdir (between ++ name), ← htext]

/-- The text of a name followed from a path is neither empty nor with a zero in it. -/
theorem IsFollowed.text_join {dir : Path} {name : RawText} (h : IsFollowed dir) (hname : IsEntryName name) :
    0 ∉ (dir.join name).text.toList ∧ (dir.join name).text ≠ "" := by
  obtain ⟨between, htext, hslash⟩ := exists_text_join dir hname.1.2.2.2
  constructor
  · rw [htext, RawText.toList_append, RawText.toList_append, List.mem_append, List.mem_append]
    rintro (hzero | hzero | hzero)
    · exact h.zero hzero
    · exact hslash hzero
    · exact hname.2.1 hzero
  · simp [htext, h.nonempty]

theorem IsFollowed.join {dir : Path} {name : RawText} (h : IsFollowed dir) (hname : IsEntryName name)
    (hshort : (dir.join name).text.size < 4096) : IsFollowed (dir.join name) :=
  ⟨(h.text_join hname).1, (h.text_join hname).2, hshort⟩

/-- **A name followed from a path to a directory** leads to what stands there under the name, unless the text gets too
long. -/
theorem LinkFree.resolve_join (hlinks : d.LinkFree) {dir : Path} {name : RawText}
    (hdir : d.resolve true dir = .ok (.entry place .directory)) (hname : IsEntryName name) :
    d.resolve true (dir.join name) =
      if 4096 ≤ (dir.join name).text.size then .error .nameTooLong
      else .ok (match d.entryAt (place ++ [name]) with
        | none => .free (place ++ [name])
        | some e => .entry (place ++ [name]) e) := by
  obtain ⟨hfollowed, hthrough⟩ := hlinks.resolve_eq_directory_iff.mp hdir
  have hslash := hname.1.2.2.2
  split
  · next hlong =>
    obtain ⟨hzero, hnonempty⟩ := hfollowed.text_join hname
    have hcontains : ¬ (dir.join name).text.toList.contains 0 = true := by simpa using hzero
    have hisEmpty : ¬ (dir.join name).text.isEmpty = true := by simpa using hnonempty
    rw [resolve, if_neg hcontains, if_neg hisEmpty, if_pos hlong]
  · next hshort =>
    have hjoined := hfollowed.join hname (Nat.not_le.mp hshort)
    have hstart := startOf_join hfollowed.nonempty hslash d.workingDirectory
    have hway : ∃ xs, pieces (dir.join name) = xs ++ [name] ∧
        d.through (startOf d.workingDirectory dir) xs = some place := by
      obtain ⟨xs, hxs, hpieces | hpieces⟩ := exists_pieces_join hfollowed.nonempty hslash
      · exact ⟨xs, hxs, hpieces ▸ hthrough⟩
      · refine ⟨xs, hxs, ?_⟩
        rw [hpieces, through_append] at hthrough
        cases hway : d.through (startOf d.workingDirectory dir) xs with
        | none => rw [hway] at hthrough; cases hthrough
        | some around => rw [hway] at hthrough; exact hthrough
    obtain ⟨xs, hxs, hway⟩ := hway
    rw [hjoined.resolve_eq, hstart, hxs, follow_append hway, hname.leadsDown.follow_eq]
    cases hentry : d.entryAt (place ++ [name]) with
    | none => rfl
    | some e =>
      cases e with
      | directory => rfl
      | file c => rfl
      | link target => exact absurd hentry (hlinks _ target)

end InteropBindings.Disk
