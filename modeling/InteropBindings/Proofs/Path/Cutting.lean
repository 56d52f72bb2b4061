import InteropBindings.Proofs.Path.Components

/-!
# Components of paths that are cut

The parent of a path has all components but the last one (`Path.components_of_parent`), and the rest of a path below
another one has the components that are left (`Path.components_of_relativeTo?`), however the text is written.
-/

namespace InteropBindings.Path

open Text

/-! ## Fillers -/

theorem componentOf?_of_isFiller {piece : List UInt8} (h : isFiller piece = true) : componentOf? piece = none := by
  rw [componentOf?, if_pos h]

theorem exists_componentOf? {piece : List UInt8} (h : isFiller piece = false) : ∃ c, componentOf? piece = some c := by
  rw [componentOf?, if_neg (by simp [h])]
  split <;> exact ⟨_, rfl⟩

/-- Fillers at the start are no components. -/
theorem filterMap_dropWhile (pieces : List (List UInt8)) :
    (pieces.dropWhile isFiller).filterMap componentOf? = pieces.filterMap componentOf? := by
  induction pieces with
  | nil => rfl
  | cons piece pieces ih =>
    rw [List.dropWhile_cons]
    split
    · next h => rw [ih, List.filterMap_cons_none (componentOf?_of_isFiller h)]
    · rfl

theorem isFiller_of_dropWhile {pieces rest : List (List UInt8)} {first : List UInt8}
    (h : pieces.dropWhile isFiller = first :: rest) : isFiller first = false := by
  have hhead := List.head?_dropWhile_not isFiller pieces
  rw [h] at hhead
  exact hhead

/-- Fillers at the end are no components. -/
theorem filterMap_trimEnd (pieces : List (List UInt8)) :
    (trimEnd pieces).filterMap componentOf? = pieces.filterMap componentOf? := by
  rw [trimEnd, List.filterMap_reverse, filterMap_dropWhile, List.filterMap_reverse, List.reverse_reverse]

theorem trimEnd_isPrefix (pieces : List (List UInt8)) : trimEnd pieces <+: pieces := by
  rw [trimEnd, ← List.reverse_suffix, List.reverse_reverse]
  exact List.dropWhile_suffix _

/-- Dropping components from the pieces. -/
theorem filterMap_dropComponents (n : Nat) (pieces : List (List UInt8)) :
    (dropComponents n pieces).filterMap componentOf? = (pieces.filterMap componentOf?).drop n := by
  induction n generalizing pieces with
  | zero => rw [dropComponents, filterMap_dropWhile, List.drop_zero]
  | succ n ih =>
    rw [dropComponents, ih, ← filterMap_dropWhile pieces]
    cases h : pieces.dropWhile isFiller with
    | nil => simp
    | cons first rest =>
      obtain ⟨c, hc⟩ := exists_componentOf? (isFiller_of_dropWhile h)
      rw [List.filterMap_cons_some hc, List.drop_succ_cons, List.drop_succ_cons, List.drop_zero]

theorem isFiller_of_dropComponents {n : Nat} {pieces rest : List (List UInt8)} {first : List UInt8}
    (h : dropComponents n pieces = first :: rest) : isFiller first = false := by
  induction n generalizing pieces with
  | zero => exact isFiller_of_dropWhile h
  | succ n ih => exact ih h

theorem mem_of_mem_dropComponents {n : Nat} {pieces : List (List UInt8)} {piece : List UInt8}
    (h : piece ∈ dropComponents n pieces) : piece ∈ pieces := by
  induction n generalizing pieces with
  | zero => exact (List.dropWhile_suffix _).subset h
  | succ n ih => exact (List.dropWhile_suffix _).subset (List.mem_of_mem_drop (ih h))

/-! ## Starts and pieces -/

/-- The components of a start and pieces. A first piece must not be taken for a start. -/
theorem components_unsplit {anchor : Anchor} {pieces : List (List UInt8)} (hslash : ∀ piece ∈ pieces, slash ∉ piece)
    (hfirst : anchor = .none → ∀ first rest, pieces = first :: rest → isFiller first = false) :
    (unsplit anchor pieces).components = anchor.components ++ pieces.filterMap componentOf? := by
  have hcut : pieces ≠ [] → segmentsOf slash (joinWith slash pieces) = pieces :=
    fun hne => segmentsOf_joinWith hne hslash
  cases anchor with
  | root =>
    have hsegments : segmentsOf slash (unsplit .root pieces).text.toList =
        [] :: segmentsOf slash (joinWith slash pieces) := by
      rw [unsplit, RawText.toList_ofList, segmentsOf, if_pos rfl]
    rw [components, split_eq hsegments, if_pos ⟨rfl, segmentsOf_ne_nil _ _⟩]
    cases pieces with
    | nil => rfl
    | cons first rest => rw [hcut (by simp)]; rfl
  | here =>
    have hsegments : segmentsOf slash (unsplit .here pieces).text.toList = [point] :: pieces := by
      rw [unsplit, RawText.toList_ofList, segmentsOf_joinWith (by simp)]
      intro piece hpiece
      rcases List.mem_cons.mp hpiece with rfl | hpiece
      · decide
      · exact hslash piece hpiece
    rw [components, split_eq hsegments, if_neg (by simp), if_pos rfl]
    rfl
  | none =>
    cases pieces with
    | nil => rfl
    | cons first rest =>
      have hsegments : segmentsOf slash (unsplit .none (first :: rest)).text.toList = first :: rest := by
        rw [unsplit, RawText.toList_ofList, hcut (by simp)]
      have hfiller : isFiller first = false := hfirst rfl first rest rfl
      simp only [isFiller, Bool.or_eq_false_iff, beq_eq_false_iff_ne, ne_eq] at hfiller
      rw [components, split_eq hsegments, if_neg fun h => hfiller.1 h.1, if_neg hfiller.2]
      rfl

/-- The pieces of a path are its segments, apart from one that is its start. -/
theorem mem_segmentsOf_of_mem_split {p : Path} {piece : List UInt8} (h : piece ∈ p.split.2) :
    piece ∈ segmentsOf slash p.text.toList := by
  cases hs : segmentsOf slash p.text.toList with
  | nil => exact absurd hs (segmentsOf_ne_nil _ _)
  | cons first rest =>
    rw [split_eq hs] at h
    split at h
    · exact List.mem_cons_of_mem _ h
    split at h
    · exact List.mem_cons_of_mem _ h
    · exact h

/-- The components of a path are those of its start and of its pieces. -/
theorem components_split (p : Path) : p.components = p.split.1.components ++ p.split.2.filterMap componentOf? := by
  rw [components]
  rcases p.split with ⟨_ | _ | _, pieces⟩ <;> rfl

/-- A path without a special start starts with a component, unless it is empty. -/
theorem split_of_none {p : Path} (h : p.split.1 = .none) {first : List UInt8} {rest : List (List UInt8)}
    (hpieces : p.split.2 = first :: rest) : p.split.2 = [[]] ∨ isFiller first = false := by
  cases hs : segmentsOf slash p.text.toList with
  | nil => exact absurd hs (segmentsOf_ne_nil _ _)
  | cons first' rest' =>
    rw [split_eq hs] at h hpieces ⊢
    split at h
    · cases h
    next hroot =>
    split at h
    · cases h
    next hhere =>
    rw [if_neg hroot, if_neg hhere] at hpieces ⊢
    obtain ⟨rfl, rfl⟩ := List.cons.inj hpieces
    by_cases hempty : first' = []
    · have hrest : rest' = [] := Decidable.byContradiction fun hne => hroot ⟨hempty, hne⟩
      exact .inl (by rw [hempty, hrest])
    · exact .inr (by simp [isFiller, hempty, hhere])

/-- A path cut somewhere has the components in front of the cut. -/
theorem components_unsplit_of_isPrefix {p : Path} {pieces : List (List UInt8)} (h : pieces <+: p.split.2)
    (hend : pieces ≠ [[]]) :
    (unsplit p.split.1 pieces).components = p.split.1.components ++ pieces.filterMap componentOf? := by
  refine components_unsplit (fun piece hp => not_mem_of_mem_segmentsOf (mem_segmentsOf_of_mem_split (h.subset hp))) ?_
  rintro hnone first rest rfl
  obtain ⟨more, hmore⟩ := h
  rcases split_of_none hnone hmore.symm with hempty | hfirst
  · rw [hempty, List.cons_append, List.cons.injEq] at hmore
    obtain ⟨rfl, hrest⟩ := hmore
    obtain ⟨rfl, _⟩ := List.append_eq_nil_iff.mp hrest
    exact absurd rfl hend
  · exact hfirst

theorem isFiller_of_trimEnd {pieces before : List (List UInt8)} {last : List UInt8}
    (h : trimEnd pieces = before ++ [last]) : isFiller last = false := by
  have hreverse : pieces.reverse.dropWhile isFiller = last :: before.reverse := by
    rw [← List.reverse_reverse (pieces.reverse.dropWhile isFiller), ← trimEnd, h]
    simp
  exact isFiller_of_dropWhile hreverse

theorem trimEnd_ne (pieces : List (List UInt8)) : trimEnd pieces ≠ [[]] := by
  intro h
  have hfiller : isFiller [] = false := isFiller_of_trimEnd (h.trans (List.nil_append _).symm)
  cases hfiller

/-! ## Parents -/

/-- A path with a parent goes on from it by one component. -/
theorem exists_of_parent {p q : Path} (h : p.parent = some q) : ∃ c, p.components = q.components ++ [c] := by
  rw [components_split p, ← filterMap_trimEnd]
  cases hreverse : (trimEnd p.split.2).reverse with
  | nil =>
    have htrimmed : trimEnd p.split.2 = [] := List.reverse_eq_nil_iff.mp hreverse
    simp only [parent, hreverse] at h
    split at h
    · next hhere =>
      cases h
      rw [hhere, htrimmed]
      exact ⟨.here, rfl⟩
    · cases h
  | cons last before =>
    have htrimmed : trimEnd p.split.2 = before.reverse ++ [last] := by
      rw [← List.reverse_reverse (trimEnd p.split.2), hreverse, List.reverse_cons]
    obtain ⟨c, hc⟩ := exists_componentOf? (isFiller_of_trimEnd htrimmed)
    simp only [parent, hreverse] at h
    obtain rfl := Option.some.inj h
    have hprefix : trimEnd before.reverse <+: p.split.2 :=
      ((trimEnd_isPrefix _).trans (htrimmed ▸ List.prefix_append _ _)).trans (trimEnd_isPrefix _)
    refine ⟨c, ?_⟩
    rw [components_unsplit_of_isPrefix hprefix (trimEnd_ne _), filterMap_trimEnd before.reverse, htrimmed,
      List.filterMap_append, ← List.append_assoc, List.filterMap_cons_some hc, List.filterMap_nil]

/-- **The parent** of a path has all components but the last one. -/
theorem components_of_parent {p q : Path} (h : p.parent = some q) : q.components = p.components.dropLast := by
  obtain ⟨c, hc⟩ := exists_of_parent h
  rw [hc, List.dropLast_concat]

/-- The paths around a path lie on its way. -/
theorem prefix_of_mem_ancestorsTo {depth : Nat} {p q : Path} (h : q ∈ ancestorsTo depth p) :
    q.components <+: p.components := by
  induction depth generalizing p with
  | zero => cases h
  | succ depth ih =>
    rw [ancestorsTo, List.mem_cons] at h
    rcases h with rfl | h
    · exact List.prefix_rfl
    · cases hparent : p.parent with
      | none =>
        rw [hparent] at h
        cases h
      | some around =>
        rw [hparent] at h
        have haround := ih h
        rw [components_of_parent hparent] at haround
        exact haround.trans (List.dropLast_prefix _)

/-- A path that ends with a name has a parent. -/
theorem exists_parent {p : Path} {around : List Component} {s : RawText} (h : p.components = around ++ [.normal s]) :
    ∃ q, p.parent = some q := by
  cases hreverse : (trimEnd p.split.2).reverse with
  | nil =>
    -- Without pieces, the last component would be the start.
    have hcomponents := components_split p
    rw [← filterMap_trimEnd, List.reverse_eq_nil_iff.mp hreverse, List.filterMap_nil, List.append_nil, h] at hcomponents
    have hmem : Component.normal s ∈ p.split.1.components := by rw [← hcomponents]; simp
    cases hstart : p.split.1 <;> rw [hstart] at hmem <;> simp [Anchor.components] at hmem
  | cons last before =>
    refine ⟨unsplit p.split.1 (trimEnd before.reverse), ?_⟩
    simp only [parent, hreverse]

/-- The pieces that a start stands for in a text. -/
def Anchor.pieces : Anchor → List (List UInt8)
  | .root => [[]]
  | .here => [[point]]
  | .none => []

/-- The text of a path, from its start and its pieces. -/
theorem text_eq (p : Path) : p.text = RawText.ofList (joinWith slash (p.split.1.pieces ++ p.split.2)) := by
  rw [← RawText.toList_inj, RawText.toList_ofList, ← joinWith_segmentsOf slash p.text.toList]
  congr 1
  cases hs : segmentsOf slash p.text.toList with
  | nil => exact absurd hs (segmentsOf_ne_nil _ _)
  | cons first rest =>
    rw [split_eq hs]
    split
    · next h => rw [h.1]; rfl
    split
    · next h => rw [h]; rfl
    · rfl

/-- The text of a start and pieces. The root alone is written with one slash. -/
theorem text_unsplit {anchor : Anchor} {pieces : List (List UInt8)} (h : anchor = .root → pieces ≠ []) :
    (unsplit anchor pieces).text = RawText.ofList (joinWith slash (anchor.pieces ++ pieces)) := by
  cases anchor with
  | root =>
    rw [unsplit, Anchor.pieces, joinWith_append slash (by simp) (h rfl)]
    rfl
  | here => rfl
  | none => rfl

/-- **The text of the parent** of a path stands in front of a slash, unless it is empty or the root. -/
theorem text_of_parent {p q : Path} (h : p.parent = some q) :
    q.text = "" ∨ q.parent = none ∨ ∃ rest, p.text = q.text ++ "/" ++ rest := by
  cases hreverse : (trimEnd p.split.2).reverse with
  | nil =>
    simp only [parent, hreverse] at h
    split at h
    · cases h
      exact .inl rfl
    · cases h
  | cons last before =>
    simp only [parent, hreverse] at h
    obtain rfl := Option.some.inj h
    have htrimmed : trimEnd p.split.2 = before.reverse ++ [last] := by
      rw [← List.reverse_reverse (trimEnd p.split.2), hreverse, List.reverse_cons]
    obtain ⟨left, hleft⟩ := trimEnd_isPrefix before.reverse
    obtain ⟨more, hmore⟩ := trimEnd_isPrefix p.split.2
    have hpieces : p.split.2 = trimEnd before.reverse ++ (left ++ [last] ++ more) := by
      calc p.split.2 = before.reverse ++ [last] ++ more := by rw [← htrimmed, hmore]
        _ = trimEnd before.reverse ++ left ++ [last] ++ more := by rw [hleft]
        _ = trimEnd before.reverse ++ (left ++ [last] ++ more) := by simp only [List.append_assoc]
    have hrest : left ++ [last] ++ more ≠ [] := by simp
    by_cases hnil : p.split.1.pieces ++ trimEnd before.reverse = []
    · -- Nothing is in front of the last piece.
      obtain ⟨hanchor, hfront⟩ := List.append_eq_nil_iff.mp hnil
      left
      rw [hfront]
      cases hsplit : p.split.1 with
      | none => rfl
      | _ => rw [hsplit] at hanchor; cases hanchor
    · by_cases hroot : p.split.1 = .root ∧ trimEnd before.reverse = []
      · rw [hroot.1, hroot.2]
        exact .inr (.inl (by decide))
      · refine .inr (.inr ⟨RawText.ofList (joinWith slash (left ++ [last] ++ more)), ?_⟩)
        rw [text_unsplit fun he hempty => hroot ⟨he, hempty⟩, text_eq p, hpieces, ← List.append_assoc,
          joinWith_append slash hnil hrest]
        simp [← RawText.toList_inj]

/-! ## What lies below -/

/-- Pieces behind some components have the components that are left. -/
theorem components_unsplit_dropComponents (p : Path) (n : Nat) :
    (unsplit .none (trimEnd (dropComponents n p.split.2))).components = (p.split.2.filterMap componentOf?).drop n := by
  rw [components_unsplit, filterMap_trimEnd, filterMap_dropComponents]
  · rfl
  · intro piece hpiece
    have hmem : piece ∈ p.split.2 := mem_of_mem_dropComponents ((trimEnd_isPrefix _).subset hpiece)
    exact not_mem_of_mem_segmentsOf (mem_segmentsOf_of_mem_split hmem)
  · intro _ first rest hpieces
    obtain ⟨more, hmore⟩ := trimEnd_isPrefix (dropComponents n p.split.2)
    rw [hpieces] at hmore
    exact isFiller_of_dropComponents hmore.symm

/-- **The rest of a path** below another one has the components that are left. -/
theorem components_of_relativeTo? {base p q : Path} (h : relativeTo? base p = some q) :
    p.components = base.components ++ q.components := by
  unfold relativeTo? at h
  split at h
  · next hprefix =>
    obtain ⟨left, hleft⟩ := List.isPrefixOf_iff_prefix.mp hprefix
    dsimp only at h
    rw [← hleft, List.append_cancel_left_eq]
    split at h
    · next hcount =>
      obtain rfl := Option.some.inj h
      have hbase : base.components = [] := List.length_eq_zero_iff.mp hcount
      rw [components_unsplit_of_isPrefix (trimEnd_isPrefix _) (trimEnd_ne _), filterMap_trimEnd, ← components_split,
        ← hleft, hbase, List.nil_append]
    · next hcount =>
      obtain rfl := Option.some.inj h
      have hdrop : left = (p.split.1.components ++ p.split.2.filterMap componentOf?).drop base.components.length := by
        rw [← components_split, ← hleft, List.drop_left]
      rw [components_unsplit_dropComponents, hdrop]
      obtain ⟨n, hn⟩ := Nat.exists_eq_succ_of_ne_zero hcount
      cases p.split.1 <;> simp [Anchor.components, hn]
  · cases h

end InteropBindings.Path
