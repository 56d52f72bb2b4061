import InteropBindings.Proofs.Disk.Trees

/-!
# Paths through links

Links may lead anywhere, so the names in a path need not be those of the place that it leads to. Some things still hold.

- A path to a directory leads to one of the tree (`Disk.IsTree.entryAt_of_resolve`).
- A directory under a name in another one is reached under that name from every path to the other one
  (`Disk.IsTree.place_of_resolve_join`).
- Paths with the same components lead to the same directory (`Disk.resolve_of_components`).
- A path to a directory leads there also when the tree has grown (`Disk.Grows.resolve_directory`).
- A name behind a path to a directory is written to in that directory (`Disk.write_join`).
-/

namespace InteropBindings.Disk

open InteropBindings.Path

variable {d : Disk} {here place : Place}

/-- What pieces lead to that lead to a directory, if that is all there is behind links as well. -/
theorem IsTree.entryAt_of_follow (h : d.IsTree) {last : Bool} {onLink : Place → List RawText → Except Refusal Target}
    (honLink : ∀ here rest, d.entryAt here = some .directory → onLink here rest = .ok (.entry place .directory) →
      d.entryAt place = some .directory)
    {rest : List RawText} (hhere : d.entryAt here = some .directory)
    (hfollow : d.follow last onLink here rest = .ok (.entry place .directory)) : d.entryAt place = some .directory := by
  rw [follow_eq_ok_iff] at hfollow
  generalize hdirectory : Target.entry place .directory = t at hfollow
  induction hfollow with
  | here =>
    cases hdirectory
    exact hhere
  | stays _ _ ih => exact ih hhere hdirectory
  | up _ ih => exact ih (h.directory_dropLast hhere) hdirectory
  | directory _ hentry _ ih => exact ih hentry hdirectory
  | file => cases hdirectory
  | free => cases hdirectory
  | link => cases hdirectory
  | through _ _ _ hthrough =>
    subst hdirectory
    refine honLink _ _ ?_ hthrough
    rw [startOf]
    split
    · rfl
    · exact hhere

/-- Pieces that stay lead to where they are followed from. -/
theorem follow_stays_all {last : Bool} {onLink : Place → List RawText → Except Refusal Target} {xs : List RawText}
    (h : ∀ x ∈ xs, staysHere x = true) : d.follow last onLink here xs = .ok (.entry here .directory) := by
  induction xs with
  | nil => rfl
  | cons x xs ih =>
    rw [follow_of_stays (h x List.mem_cons_self)]
    exact ih fun y hy => h y (List.mem_cons_of_mem x hy)

/-- **A path to a directory** leads to one of the tree. -/
theorem IsTree.entryAt_of_resolve (h : d.IsTree) {last : Bool} {p : Path}
    (hresolve : d.resolve last p = .ok (.entry place .directory)) : d.entryAt place = some .directory := by
  have hlinks : ∀ links here rest, d.entryAt here = some .directory →
      d.followLinks last links here rest = .ok (.entry place .directory) → d.entryAt place = some .directory := by
    intro links
    induction links with
    | zero => intro _ _ _ hfollow; cases hfollow
    | succ links ih => exact fun here rest hhere hfollow => h.entryAt_of_follow ih hhere hfollow
  rw [(isFollowed_of_resolve hresolve).resolve_eq] at hresolve
  refine h.entryAt_of_follow (hlinks 40) ?_ hresolve
  rw [startOf]
  split
  · rfl
  · exact h.start

/-- What follows behind pieces that lead to a directory is followed from there, over the links that are left. -/
theorem exists_followLinks_append {links : Nat} {xs stays : List RawText} (hstays : ∀ x ∈ stays, staysHere x = true)
    (h : d.followLinks true links here (xs ++ stays) = .ok (.entry place .directory)) :
    ∃ left, ∀ ys, d.followLinks true links here (xs ++ ys) = d.followLinks true (left + 1) place ys := by
  -- The pieces get fewer until a link is met, which puts its target before them: so the outer induction is on the links
  -- left.
  induction links generalizing here xs with
  | zero => cases h
  | succ links ihLinks =>
    simp only [followLinks] at h
    induction xs generalizing here with
    | nil =>
      rw [List.nil_append, follow_stays_all hstays] at h
      cases h
      exact ⟨links, fun _ => rfl⟩
    | cons piece xs ih =>
      rw [List.cons_append] at h
      simp only [List.cons_append, followLinks] at ih ⊢
      generalize hrest : xs ++ stays = rest at h ih
      cases follow_eq_ok_iff.mp h with
      | stays hpiece h =>
        simp only [follow_of_stays hpiece]
        exact ih h.follow_eq
      | up h => exact ih h.follow_eq
      | directory hdown hentry h =>
        simp only [hdown.follow_directory hentry]
        exact ih h.follow_eq
      | through hdown hentry _ h =>
        -- A link is followed over one link less, along its target and then along the rest.
        simp only [hdown.follow_through hentry fun _ => rfl, ← List.append_assoc]
        rw [← hrest, ← List.append_assoc] at h
        exact ihLinks h

/-- A name followed from a path to a directory is followed from there, over the links that are left. -/
theorem exists_followLinks_join {dir : Path} {name : RawText}
    (hdir : d.resolve true dir = .ok (.entry place .directory))
    (hslash : slash ∉ name.toList) (hjoin : IsFollowed (dir.join name)) :
    ∃ left, d.resolve true (dir.join name) = d.followLinks true (left + 1) place [name] := by
  have hfollowed := isFollowed_of_resolve hdir
  obtain ⟨xs, hxs, hpieces⟩ := exists_pieces_join hfollowed.nonempty hslash
  -- A directory with slashes at its end has an empty piece last, which the path of the entry has not.
  have hway : ∃ stays, pieces dir = xs ++ stays ∧ ∀ x ∈ stays, staysHere x = true := by
    rcases hpieces with hpieces | hpieces
    · exact ⟨[], by rw [hpieces, List.append_nil], by simp⟩
    · exact ⟨[""], hpieces, by simp [staysHere]⟩
  obtain ⟨stays, hstays, hall⟩ := hway
  rw [hfollowed.resolve_eq, ← followLinks, hstays] at hdir
  obtain ⟨left, hleft⟩ := exists_followLinks_append hall hdir
  exact ⟨left, by rw [hjoin.resolve_eq, ← followLinks, startOf_join hfollowed.nonempty hslash, hxs, hleft]⟩

/-- **A directory under a name in another one** is reached under that name from every path to the other one. -/
theorem IsTree.place_of_resolve_join (h : d.IsTree) {dir : Path} {name : RawText} {e : Entry} {q : Place}
    (hdir : d.resolve true dir = .ok (.entry place .directory)) (hentry : d.entryAt (place ++ [name]) = some .directory)
    (hjoin : d.resolve true (dir.join name) = .ok (.entry q e)) : q = place ++ [name] ∧ e = .directory := by
  obtain ⟨hname, _⟩ := h.of_entryAt hentry
  obtain ⟨left, hleft⟩ := exists_followLinks_join hdir hname.1.2.2.2 (isFollowed_of_resolve hjoin)
  rw [hleft, followLinks, hname.leadsDown.follow_directory hentry] at hjoin
  cases hjoin
  exact ⟨rfl, rfl⟩

/-! ## Components -/

/-- On the way to a directory, pieces that lead nowhere else do not matter. -/
theorem followLinks_filter_iff (links : Nat) (xs : List RawText) :
    d.followLinks true links here xs = .ok (.entry place .directory) ↔
      d.followLinks true links here (xs.filter fun x => !staysHere x) = .ok (.entry place .directory) := by
  induction links generalizing here xs with
  | zero => exact Iff.rfl
  | succ links ihLinks =>
    simp only [followLinks]
    induction xs generalizing here with
    | nil => exact Iff.rfl
    | cons piece xs ih =>
      cases hstays : staysHere piece with
      | true =>
        simpa only [follow, hstays, List.filter_cons, if_true, Bool.not_true, Bool.false_eq_true, if_false] using ih
      | false =>
        simp only [List.filter_cons, hstays, Bool.not_false, if_true, follow, Bool.false_eq_true, if_false]
        split
        · exact ih
        split
        · exact Iff.rfl
        cases hentry : d.entryAt (here ++ [piece]) with
        | none => grind
        | some e =>
          cases e with
          | directory => exact ih
          | file c => grind
          | link target =>
            simp only [Bool.not_true, Bool.and_false, Bool.false_eq_true, if_false]
            rw [ihLinks, ihLinks (pieces target ++ xs.filter _), List.filter_append, List.filter_append,
              List.filter_filter]
            simp only [Bool.and_self]

/-- The piece that a step is written as. -/
def pieceOf? : Component → Option RawText
  | .root | .here => none
  | .parent => some ".."
  | .normal name => some name

/-- The pieces that lead elsewhere are those of the components. -/
theorem filter_pieces (p : Path) : ((pieces p).filter fun x => !staysHere x) = p.components.filterMap pieceOf? := by
  have hsteps : ∀ xs : List RawText, (xs.filter fun x => !staysHere x) = (xs.filterMap stepOf?).filterMap pieceOf? := by
    intro xs
    induction xs with
    | nil => rfl
    | cons x xs ih =>
      rw [List.filter_cons, List.filterMap_cons, stepOf?_eq]
      cases hstays : staysHere x with
      | true => simpa using ih
      | false =>
        by_cases hup : x = ".."
        · simpa [hup, pieceOf?] using ih
        · simpa [hup, pieceOf?] using ih
  rw [hsteps, filterMap_pieces, components_eq, List.filterMap_append]
  cases p.split.1 <;> rfl

/-- Paths with the same components start at one place. -/
theorem startOf_of_components {p q : Path} (h : q.components = p.components) (here : Place) :
    startOf here q = startOf here p := by
  have hroot : ∀ p : Path, p.isAbsolute = true ↔ Component.root ∈ p.components := by
    intro p
    have hstep : Component.root ∉ stepsOf p.text := by
      intro hmem
      obtain hup | ⟨name, hname⟩ := eq_parent_or_normal_of_mem_stepsOf hmem
      · cases hup
      · cases hname
    rw [← anchor_eq_root_iff, components_eq, List.mem_append, or_iff_left hstep]
    cases p.split.1 <;> simp [Anchor.components]
  have habsolute : q.isAbsolute = p.isAbsolute := by rw [Bool.eq_iff_iff, hroot, hroot, h]
  rw [startOf, startOf, habsolute]

/-- **Paths with the same components** lead to the same directory. -/
theorem resolve_of_components {p q : Path} (h : d.resolve true p = .ok (.entry place .directory))
    (hcomponents : q.components = p.components) (hq : IsFollowed q) :
    d.resolve true q = .ok (.entry place .directory) := by
  rw [(isFollowed_of_resolve h).resolve_eq, ← followLinks, followLinks_filter_iff, filter_pieces] at h
  rw [hq.resolve_eq, ← followLinks, followLinks_filter_iff, filter_pieces, hcomponents,
    startOf_of_components hcomponents]
  exact h

/-- **A path to a directory** leads there also when the tree has grown. -/
theorem Grows.resolve_directory {d' : Disk} (hg : d.Grows d') {p : Path}
    (h : d.resolve true p = .ok (.entry place .directory)) :
    d'.resolve true p = .ok (.entry place .directory) := by
  have hlinks : ∀ links here rest, d.followLinks true links here rest = .ok (.entry place .directory) →
      d'.followLinks true links here rest = .ok (.entry place .directory) := by
    intro links
    induction links with
    | zero => intro _ _ h; cases h
    | succ links ihLinks =>
      intro here rest h
      rw [followLinks, follow_eq_ok_iff] at h ⊢
      generalize hdirectory : Target.entry place .directory = t at h ⊢
      induction h with
      | here here => exact .here here
      | stays hstays _ ih => exact .stays hstays (ih hdirectory)
      | up _ ih => exact .up (ih hdirectory)
      | directory hdown hentry _ ih => exact .directory hdown (hg.directory hentry) (ih hdirectory)
      | file => cases hdirectory
      | free => cases hdirectory
      | link => cases hdirectory
      | through hdown hentry hgoes h =>
        subst hdirectory
        exact .through hdown (hg.link_iff.mpr hentry) hgoes (ihLinks _ _ h)
  have hp := isFollowed_of_resolve h
  rw [hp.resolve_eq, ← followLinks] at h ⊢
  rw [hg.workingDirectory]
  exact hlinks _ _ _ h

/-! ## Writing -/

/-- Where a path leads to an entry, it does so when a link at its end is not followed. -/
theorem exists_followLinks_false {links : Nat} {xs : List RawText} {e : Entry}
    (h : d.followLinks true links here xs = .ok (.entry place e)) :
    ∃ q e', d.followLinks false links here xs = .ok (.entry q e') := by
  induction links generalizing here xs with
  | zero => cases h
  | succ links ihLinks =>
    rw [followLinks, follow_eq_ok_iff] at h
    generalize htarget : Target.entry place e = t at h
    simp only [followLinks]
    induction h with
    | here => exact ⟨_, _, rfl⟩
    | stays hstays _ ih => simpa only [follow_of_stays hstays] using ih htarget
    | up _ ih => exact ih htarget
    | directory hdown hentry _ ih => simpa only [hdown.follow_directory hentry] using ih htarget
    | file hdown hentry => exact ⟨_, _, (Follows.file hdown hentry).follow_eq⟩
    | free => cases htarget
    | link _ _ hlast => cases hlast
    | @through here piece rest target t hdown hentry _ h =>
      subst htarget
      by_cases hrest : rest = []
      · subst hrest
        exact ⟨_, _, (Follows.link hdown hentry rfl).follow_eq⟩
      · rw [hdown.follow_through hentry fun hnil => absurd hnil hrest]
        exact ihLinks h

/-- **No directory is made** where a path leads to one. -/
theorem makeDirectory_of_directory {p : Path} (h : d.resolve true p = .ok (.entry place .directory)) :
    d.makeDirectory p = .error .alreadyThere := by
  have hp := isFollowed_of_resolve h
  have htrimmed : IsFollowed (withoutEndSlashes p) := by
    rcases text_withoutEndSlashes p with heq | ⟨hne, count, htext⟩
    · rw [heq]
      exact hp
    · rw [RawText.append_assoc] at htext
      exact hp.of_append htext hne
  have hdirectory := resolve_of_components h (components_withoutEndSlashes p) htrimmed
  rw [htrimmed.resolve_eq, ← followLinks] at hdirectory
  obtain ⟨q, e, hentry⟩ := exists_followLinks_false hdirectory
  rw [makeDirectory, htrimmed.resolve_eq, ← followLinks, hentry]
  rfl

/-- **A name behind a path to a directory** leads to what stands there, unless that is a link. -/
theorem resolve_join {dir : Path} {name : RawText} (hdir : d.resolve true dir = .ok (.entry place .directory))
    (hname : IsEntryName name) (hshort : (dir.join name).text.size < 4096)
    (hlink : ∀ target, d.entryAt (place ++ [name]) ≠ some (.link target)) :
    d.resolve true (dir.join name) = .ok (match d.entryAt (place ++ [name]) with
      | none => .free (place ++ [name])
      | some e => .entry (place ++ [name]) e) := by
  obtain ⟨left, hleft⟩ := exists_followLinks_join hdir hname.1.2.2.2 ((isFollowed_of_resolve hdir).join hname hshort)
  rw [hleft, followLinks, hname.leadsDown.follow_eq]
  cases hentry : d.entryAt (place ++ [name]) with
  | none => rfl
  | some e =>
    cases e with
    | directory => rfl
    | file c => rfl
    | link target => exact absurd hentry (hlink target)

/-- **A file is written under a name** in the directory that a path leads to, if nothing but a file stands there. -/
theorem write_join {dir : Path} {name : RawText} (hdir : d.resolve true dir = .ok (.entry place .directory))
    (hname : IsEntryName name) (hshort : (dir.join name).text.size < 4096)
    (hfree : ∀ e, d.entryAt (place ++ [name]) = some e → kindOf e = .file) (c : Content) :
    d.write (dir.join name) c = .ok (d.put (place ++ [name]) (.file c)) := by
  have hslash : (dir.join name).text.endsWith "/" = false := by
    rw [Bool.eq_false_iff]
    intro hend
    obtain ⟨between, htext, _⟩ := exists_text_join dir hname.1.2.2.2
    obtain ⟨before, hbefore⟩ := List.isSuffixOf_iff_suffix.mp hend
    obtain hempty | ⟨cs, c, hlast⟩ := List.eq_nil_or_concat' name.toList
    · exact hname.1.1 (RawText.toList_eq_nil_iff.mp hempty)
    · -- The last character is one of the name.
      rw [htext, RawText.toList_append, RawText.toList_append, hlast, ← List.append_assoc,
        ← List.append_assoc] at hbefore
      obtain rfl : slash = c := List.singleton_inj.mp (List.append_inj' hbefore rfl).2
      exact hname.1.2.2.2 (by simp [hlast])
  have hlink : ∀ target, d.entryAt (place ++ [name]) ≠ some (.link target) := by
    intro target htarget
    cases hfree _ htarget
  rw [write, hslash, resolve_join hdir hname hshort hlink]
  cases hentry : d.entryAt (place ++ [name]) with
  | none => rfl
  | some e =>
    cases e with
    | file _ => rfl
    | _ => cases hfree _ hentry

end InteropBindings.Disk
