import InteropBindings.Disk.Access

/-!
# Ways along pieces

Pieces of a path lead to a target step by step (`Disk.Follows`): a piece stays or goes up, or it is the name of a
directory that is gone into; what is at the end of the way, or a link on it, has its own case. There is such a way
exactly when following the pieces gives the target (`Disk.follow_eq_ok_iff`), so what holds on all ways is proved by
induction on them.
-/

namespace InteropBindings.Disk

variable {d : Disk} {last : Bool} {onLink : Place → List RawText → Except Refusal Target} {here : Place}
  {piece : RawText} {rest : List RawText} {t : Target}

/-- A piece that leads down: it neither stays nor goes up, and is not too long for a name. -/
structure LeadsDown (piece : RawText) : Prop where
  leaves : staysHere piece = false
  notUp : (piece == "..") = false
  short : piece.size ≤ 255

/-- The ways along pieces from a place to a target. -/
inductive Follows (d : Disk) (last : Bool) (onLink : Place → List RawText → Except Refusal Target) :
    Place → List RawText → Target → Prop
  | here (here : Place) : Follows d last onLink here [] (.entry here .directory)
  | stays {here : Place} {piece : RawText} {rest : List RawText} {t : Target} (hstays : staysHere piece = true)
    (h : Follows d last onLink here rest t) : Follows d last onLink here (piece :: rest) t
  | up {here : Place} {rest : List RawText} {t : Target} (h : Follows d last onLink here.dropLast rest t) :
    Follows d last onLink here (".." :: rest) t
  | directory {here : Place} {piece : RawText} {rest : List RawText} {t : Target} (hdown : LeadsDown piece)
    (hentry : d.entryAt (here ++ [piece]) = some .directory) (h : Follows d last onLink (here ++ [piece]) rest t) :
    Follows d last onLink here (piece :: rest) t
  | file {here : Place} {piece : RawText} {c : Content} (hdown : LeadsDown piece)
    (hentry : d.entryAt (here ++ [piece]) = some (.file c)) :
    Follows d last onLink here [piece] (.entry (here ++ [piece]) (.file c))
  /-- Behind a free place there may be slashes, unless it is to be taken by a file. -/
  | free {here : Place} {piece : RawText} {rest : List RawText} (hdown : LeadsDown piece)
    (hentry : d.entryAt (here ++ [piece]) = none) (hslashes : ∀ x ∈ rest, x = "") (hend : last = true → rest = []) :
    Follows d last onLink here (piece :: rest) (.free (here ++ [piece]))
  | link {here : Place} {piece : RawText} {target : Path} (hdown : LeadsDown piece)
    (hentry : d.entryAt (here ++ [piece]) = some (.link target)) (hlast : last = false) :
    Follows d last onLink here [piece] (.entry (here ++ [piece]) (.link target))
  | through {here : Place} {piece : RawText} {rest : List RawText} {target : Path} {t : Target}
    (hdown : LeadsDown piece) (hentry : d.entryAt (here ++ [piece]) = some (.link target))
    (hgoes : rest = [] → last = true) (honLink : onLink (startOf here target) (pieces target ++ rest) = .ok t) :
    Follows d last onLink here (piece :: rest) t

/-! ## One piece -/

theorem follow_of_stays (hstays : staysHere piece = true) :
    d.follow last onLink here (piece :: rest) = d.follow last onLink here rest := by
  rw [follow, if_pos hstays]

theorem follow_up : d.follow last onLink here (".." :: rest) = d.follow last onLink here.dropLast rest := rfl

theorem LeadsDown.follow_eq (hdown : LeadsDown piece) : d.follow last onLink here (piece :: rest) =
    match d.entryAt (here ++ [piece]) with
    | none =>
      if !rest.all (· == "") then .error .missing
      else if last && !rest.isEmpty then .error .isDirectory
      else .ok (.free (here ++ [piece]))
    | some .directory => d.follow last onLink (here ++ [piece]) rest
    | some (.file c) => if rest.isEmpty then .ok (.entry (here ++ [piece]) (.file c)) else .error .notDirectory
    | some (.link target) =>
      if rest.isEmpty && !last then .ok (.entry (here ++ [piece]) (.link target))
      else onLink (startOf here target) (pieces target ++ rest) := by
  have hshort : ¬ 255 < piece.size := Nat.not_lt.mpr hdown.short
  rw [follow, hdown.leaves, hdown.notUp, if_neg hshort]
  rfl

theorem LeadsDown.follow_directory (hdown : LeadsDown piece) (hentry : d.entryAt (here ++ [piece]) = some .directory) :
    d.follow last onLink here (piece :: rest) = d.follow last onLink (here ++ [piece]) rest := by
  rw [hdown.follow_eq, hentry]

/-- A link is followed along its target and then along the rest. -/
theorem LeadsDown.follow_through (hdown : LeadsDown piece) {target : Path}
    (hentry : d.entryAt (here ++ [piece]) = some (.link target)) (hgoes : rest = [] → last = true) :
    d.follow last onLink here (piece :: rest) = onLink (startOf here target) (pieces target ++ rest) := by
  have hmore : ¬ (rest.isEmpty && !last) = true := by simpa using hgoes
  rw [hdown.follow_eq, hentry]
  exact if_neg hmore

/-! ## All pieces -/

theorem follows_of_follow (h : d.follow last onLink here rest = .ok t) : d.Follows last onLink here rest t := by
  induction rest generalizing here with
  | nil =>
    cases h
    exact .here here
  | cons piece rest ih =>
    by_cases hstays : staysHere piece = true
    · rw [follow_of_stays hstays] at h
      exact .stays hstays (ih h)
    by_cases hup : (piece == "..") = true
    · obtain rfl := eq_of_beq hup
      exact .up (ih h)
    by_cases hlong : 255 < piece.size
    · rw [follow, if_neg hstays, if_neg hup, if_pos hlong] at h
      cases h
    have hdown : LeadsDown piece := ⟨by simpa using hstays, by simpa using hup, Nat.not_lt.mp hlong⟩
    rw [hdown.follow_eq] at h
    split at h
    · next hentry =>
      split at h
      · cases h
      next hslashes =>
      split at h
      · cases h
      next hend =>
      cases h
      exact .free hdown hentry (by simpa using hslashes) (by simpa using hend)
    · next hentry => exact .directory hdown hentry (ih h)
    · next hentry =>
      split at h
      · next hend =>
        cases h
        obtain rfl := List.isEmpty_iff.mp hend
        exact .file hdown hentry
      · cases h
    · next hentry =>
      split at h
      · next hend =>
        cases h
        obtain ⟨rfl, hlast⟩ : rest = [] ∧ last = false := by simpa using hend
        exact .link hdown hentry hlast
      · next hgoes => exact .through hdown hentry (by simpa using hgoes) h

theorem Follows.follow_eq (h : d.Follows last onLink here rest t) : d.follow last onLink here rest = .ok t := by
  induction h with
  | here here => rfl
  | stays hstays _ ih => rw [follow_of_stays hstays, ih]
  | up _ ih => rw [follow_up, ih]
  | directory hdown hentry _ ih => rw [hdown.follow_directory hentry, ih]
  | file hdown hentry => rw [hdown.follow_eq, hentry]; rfl
  | @free here piece rest hdown hentry hslashes hend =>
    have hall : rest.all (· == "") = true := List.all_eq_true.mpr fun x hx => beq_iff_eq.mpr (hslashes x hx)
    have hmore : (last && !rest.isEmpty) = false := by
      cases last <;> simp_all
    rw [hdown.follow_eq, hentry]
    simp only [hall, hmore, Bool.not_true, Bool.false_eq_true, if_false]
  | link hdown hentry hlast => rw [hdown.follow_eq, hentry, hlast]; rfl
  | through hdown hentry hgoes honLink => rw [hdown.follow_through hentry hgoes, honLink]

/-- **Following pieces** is going a way along them. -/
theorem follow_eq_ok_iff : d.follow last onLink here rest = .ok t ↔ d.Follows last onLink here rest t :=
  ⟨follows_of_follow, Follows.follow_eq⟩

end InteropBindings.Disk
