import InteropBindings.Proofs.Path.Cutting

/-!
# Paths followed through names

Names that are followed from a path, one after the other, stand behind its text with slashes in between
(`Path.text_foldl_join`) and are its further components (`Path.components_foldl_join`). The rest of the path below the
one it was followed from is exactly these names, however that one is written (`Path.relativeTo?_foldl_join`).
-/

namespace InteropBindings.Path

open Text

/-! ## Texts without slashes at both ends -/

/-- What neither starts nor ends with a slash stands behind a path as it is, with a slash of its own. -/
theorem front_join {w : RawText} (hne : w ≠ "") (h : ∀ cs, w.toList ≠ slash :: cs ∧ w.toList ≠ cs ++ [slash])
    (p : Path) :
    (p.join w).front = p.front ++ w ++ "/" := by
  have habsolute : isAbsolute ⟨w⟩ = false := by
    rw [isAbsolute, RawText.beginsWith, Bool.eq_false_iff]
    intro hslash
    obtain ⟨rest, hrest⟩ := List.isPrefixOf_iff_prefix.mp hslash
    exact (h rest).1 hrest.symm
  have hend : RawText.endsWith (p.front ++ w) "/" = false := by
    obtain ⟨before, c, hlast⟩ := (List.eq_nil_or_concat w.toList).resolve_left fun hnil =>
      hne (RawText.toList_inj.mp hnil)
    have hc : c ≠ slash := by
      rintro rfl
      exact (h before).2 (by rw [hlast, List.concat_eq_append])
    rw [RawText.endsWith, Bool.eq_false_iff]
    intro hslash
    obtain ⟨front, hfront⟩ := List.isSuffixOf_iff_suffix.mp hslash
    rw [RawText.toList_append, hlast, List.concat_eq_append, ← List.append_assoc] at hfront
    exact hc (List.cons.inj (List.append_inj_right' hfront rfl)).1.symm
  have hempty : (p.front ++ w).isEmpty = false := by simp [hne]
  rw [join, push_eq p habsolute, front, hempty, hend, Bool.or_false, if_neg Bool.false_ne_true]

theorem IsName.no_slash {s : RawText} (h : IsName s) (cs : List UInt8) :
    s.toList ≠ slash :: cs ∧ s.toList ≠ cs ++ [slash] := by
  refine ⟨fun hs => h.2.2.2 ?_, fun hs => h.2.2.2 ?_⟩ <;>
    · rw [hs]
      simp

/-- Joined texts that are not empty and hold no slashes neither start nor end with one. -/
theorem joined_no_slash {parts : List RawText} (hne : parts ≠ []) (h : ∀ s ∈ parts, s ≠ "" ∧ slash ∉ s.toList)
    (cs : List UInt8) :
    (RawText.joined slash parts).toList ≠ slash :: cs ∧ (RawText.joined slash parts).toList ≠ cs ++ [slash] := by
  -- Otherwise one of the segments would be empty.
  have hsegments : RawText.segments slash (RawText.joined slash parts) = parts :=
    RawText.segments_joined hne fun s hs => (h s hs).2
  have hempty : ∀ before after : List UInt8, (RawText.joined slash parts).toList = before ++ slash :: after →
      before = [] ∨ after = [] → False := by
    intro before after hcut hnil
    have hmem : RawText.ofString "" ∈ RawText.segments slash (RawText.joined slash parts) := by
      rw [RawText.segments, hcut, segmentsOf_append_cons, List.map_append, List.mem_append]
      rcases hnil with rfl | rfl
      · exact .inl (by simp [segmentsOf])
      · exact .inr (by simp [segmentsOf])
    rw [hsegments] at hmem
    exact (h "" hmem).1 rfl
  exact ⟨fun hcut => hempty [] cs hcut (.inl rfl), fun hcut => hempty cs [] hcut (.inr rfl)⟩

/-! ## Names followed from a path -/

/-- The text of a path that names are followed from stands in front of them. -/
theorem text_foldl_join {names : List RawText} (hne : names ≠ []) (h : ∀ n ∈ names, IsName n) (p : Path) :
    names.foldl join p = ⟨p.front ++ RawText.joined slash names⟩ := by
  induction names generalizing p with
  | nil => exact absurd rfl hne
  | cons n names ih =>
    have hn : IsName n := h n List.mem_cons_self
    rw [List.foldl_cons]
    by_cases hnil : names = []
    · subst hnil
      rw [List.foldl_nil, join, push_eq p (isAbsolute_of_not_mem hn.2.2.2)]
      simp
    · rw [ih hnil fun m hm => h m (List.mem_cons_of_mem _ hm), front_join hn.1 hn.no_slash,
        RawText.joined_cons _ _ hnil, RawText.append_assoc, RawText.append_assoc, RawText.append_assoc]
      rfl

/-- **Names that are followed from a path** are its further components. -/
theorem components_foldl_join {names : List RawText} (h : ∀ n ∈ names, IsName n) (p : Path) :
    (names.foldl join p).components = p.components ++ names.map .normal := by
  induction names generalizing p with
  | nil => simp
  | cons n names ih =>
    rw [List.foldl_cons, ih fun m hm => h m (List.mem_cons_of_mem _ hm), (h n List.mem_cons_self).components_join,
      List.map_cons, List.append_assoc, List.singleton_append]

/-- Different names followed from a path lead to different paths. -/
theorem foldl_join_inj {names names' : List RawText} (h : ∀ n ∈ names, IsName n) (h' : ∀ n ∈ names', IsName n)
    {p : Path} (hsame : (names.foldl join p).same (names'.foldl join p) = true) : names = names' := by
  have hcomponents := beq_iff_eq.mp hsame
  rw [components_foldl_join h, components_foldl_join h', List.append_cancel_left_eq] at hcomponents
  exact (List.map_inj_right fun _ _ => Component.normal.inj).mp hcomponents

/-! ## The rest of a path -/

theorem IsName.isFiller {s : RawText} (h : IsName s) : isFiller s.toList = false := by
  rw [Bool.eq_false_iff]
  intro hfiller
  have hnone := componentOf?_of_isFiller hfiller
  rw [h.componentOf?] at hnone
  cases hnone

theorem trimEnd_append_singleton (before : List (List UInt8)) {last : List UInt8} (h : isFiller last = false) :
    trimEnd (before ++ [last]) = before ++ [last] := by
  simp [trimEnd, h]

theorem trimEnd_names {names : List RawText} (hne : names ≠ []) (h : ∀ n ∈ names, IsName n) :
    trimEnd (names.map RawText.toList) = names.map RawText.toList := by
  obtain ⟨before, last, rfl⟩ := (List.eq_nil_or_concat names).resolve_left hne
  rw [List.concat_eq_append] at h ⊢
  rw [List.map_append, List.map_singleton]
  exact trimEnd_append_singleton _ (h last (by simp)).isFiller

theorem dropComponents_cons_of_isFiller {piece : List UInt8} (h : isFiller piece = true) (n : Nat)
    (pieces : List (List UInt8)) : dropComponents n (piece :: pieces) = dropComponents n pieces := by
  cases n <;> simp only [dropComponents, List.dropWhile_cons, if_pos h]

/-- Dropping all components of some pieces leaves the further ones, if they start with a component. -/
theorem dropComponents_append (pieces : List (List UInt8)) {more : List (List UInt8)}
    (h : ∀ first rest, more = first :: rest → isFiller first = false) :
    dropComponents (pieces.filterMap componentOf?).length (pieces ++ more) = more := by
  induction pieces with
  | nil =>
    cases more with
    | nil => rfl
    | cons first rest =>
      have hfirst : isFiller first = false := h first rest rfl
      simp [dropComponents, hfirst]
  | cons piece pieces ih =>
    rw [List.cons_append]
    cases hfiller : isFiller piece with
    | true =>
      rw [List.filterMap_cons_none (componentOf?_of_isFiller hfiller), dropComponents_cons_of_isFiller hfiller, ih]
    | false =>
      obtain ⟨c, hc⟩ := exists_componentOf? hfiller
      rw [List.filterMap_cons_some hc, List.length_cons, dropComponents, List.dropWhile_cons,
        if_neg (by rw [hfiller]; exact Bool.false_ne_true), List.drop_succ_cons, List.drop_zero, ih]

/-- Names that are followed from a path are its last pieces. -/
theorem exists_split_foldl_join {names : List RawText} (hne : names ≠ []) (h : ∀ n ∈ names, IsName n) (p : Path) :
    ∃ pieces, (names.foldl join p).split.2 = pieces ++ names.map RawText.toList := by
  have hslash : ∀ s ∈ names, slash ∉ s.toList := fun s hs => (h s hs).2.2.2
  have hjoined : segmentsOf slash (RawText.joined slash names).toList = names.map RawText.toList := by
    rw [← RawText.map_toList_segments, RawText.segments_joined hne hslash]
  -- The pieces of the text are those in front of the names, if there are any, and the names.
  have hpieces : ∃ before, segmentsOf slash (names.foldl join p).text.toList = before ++ names.map RawText.toList := by
    rw [text_foldl_join hne h]
    rcases front_spec p with hempty | hend
    · exact ⟨[], by rw [hempty, RawText.empty_append, hjoined, List.nil_append]⟩
    · obtain ⟨front, hfront⟩ := List.isSuffixOf_iff_suffix.mp hend
      have htext : (p.front ++ RawText.joined slash names).toList =
          front ++ slash :: (RawText.joined slash names).toList := by
        rw [RawText.toList_append, ← hfront]
        simp
      exact ⟨segmentsOf slash front, by rw [htext, segmentsOf_append_cons, hjoined]⟩
  obtain ⟨before, hbefore⟩ := hpieces
  cases before with
  | nil =>
    obtain ⟨n, rest, rfl⟩ := List.exists_cons_of_ne_nil hne
    have hfiller := (h n List.mem_cons_self).isFiller
    simp only [isFiller, Bool.or_eq_false_iff, beq_eq_false_iff_ne, ne_eq] at hfiller
    refine ⟨[], ?_⟩
    rw [List.nil_append, List.map_cons] at hbefore
    rw [split_eq hbefore, if_neg fun he => hfiller.1 he.1, if_neg hfiller.2]
    rfl
  | cons first before =>
    rw [List.cons_append] at hbefore
    rw [split_eq hbefore]
    split
    · exact ⟨before, rfl⟩
    split
    · exact ⟨before, rfl⟩
    · exact ⟨first :: before, rfl⟩

/-- **The rest of a path** below the one that names were followed from is these names. -/
theorem relativeTo?_foldl_join {names : List RawText} (hne : names ≠ []) (h : ∀ n ∈ names, IsName n) (p : Path) :
    relativeTo? p (names.foldl join p) = some ⟨RawText.joined slash names⟩ := by
  have hcomponents := components_foldl_join h p
  have hprefix : p.components.isPrefixOf (names.foldl join p).components = true :=
    List.isPrefixOf_iff_prefix.mpr (hcomponents ▸ List.prefix_append _ _)
  obtain ⟨pieces, hpieces⟩ := exists_split_foldl_join hne h p
  have hfront : p.components = (names.foldl join p).split.1.components ++ pieces.filterMap componentOf? := by
    rw [components_split (names.foldl join p), hpieces, List.filterMap_append, filterMap_names h,
      ← List.append_assoc] at hcomponents
    exact (List.append_cancel_right hcomponents).symm
  obtain ⟨n, rest, rfl⟩ := List.exists_cons_of_ne_nil hne
  have hfirst : ∀ first left, (n :: rest).map RawText.toList = first :: left → isFiller first = false := by
    intro first left he
    rw [List.map_cons, List.cons.injEq] at he
    exact he.1 ▸ (h n List.mem_cons_self).isFiller
  rw [relativeTo?, if_pos hprefix]
  dsimp only
  by_cases hcount : p.components.length = 0
  · -- Without components in front, there is no start either, and no piece in front of the names.
    rw [if_pos hcount]
    rw [List.length_eq_zero_iff.mp hcount, eq_comm, List.append_eq_nil_iff] at hfront
    have hnone : ((n :: rest).foldl join p).split.1 = .none := by
      cases hanchor : ((n :: rest).foldl join p).split.1 with
      | none => rfl
      | _ => rw [hanchor] at hfront; cases hfront.1
    have hnil : pieces = [] := by
      cases pieces with
      | nil => rfl
      | cons first left =>
        rcases split_of_none hnone hpieces with hempty | hfiller
        · rw [hpieces] at hempty
          simp at hempty
        · obtain ⟨c, hc⟩ := exists_componentOf? hfiller
          have hsteps := hfront.2
          rw [List.filterMap_cons_some hc] at hsteps
          cases hsteps
    rw [hnone, hpieces, hnil, List.nil_append, trimEnd_names hne h]
    rfl
  · rw [if_neg hcount]
    have hdrop : (if ((n :: rest).foldl join p).split.1 = .none then p.components.length else p.components.length - 1) =
        (pieces.filterMap componentOf?).length := by
      rw [hfront, List.length_append]
      cases ((n :: rest).foldl join p).split.1 <;> simp [Anchor.components]
    rw [hdrop, hpieces, dropComponents_append pieces hfirst, trimEnd_names hne h]
    rfl

end InteropBindings.Path
