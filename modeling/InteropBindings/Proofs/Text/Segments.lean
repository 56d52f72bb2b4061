import InteropBindings.Text.Segments

/-!
# Texts that are put together at a separator

A text that is put together at a separator is cut there again, whatever stands on both sides (`segmentsOf_append_cons`),
and strings without the separator are the segments of their join (`segments_joined`), so the join tells them apart
(`joined_inj`).
-/

namespace InteropBindings.Text

variable {α : Type}

/-- A text that is put together at a separator is cut there. -/
theorem segmentsOf_append_cons [DecidableEq α] (sep : α) (xs ys : List α) :
    segmentsOf sep (xs ++ sep :: ys) = segmentsOf sep xs ++ segmentsOf sep ys := by
  induction xs with
  | nil => simp [segmentsOf]
  | cons c xs ih =>
    rw [List.cons_append, segmentsOf, segmentsOf, ih]
    by_cases h : c = sep
    · simp [h]
    · rw [if_neg h, if_neg h]
      cases hs : segmentsOf sep xs with
      | nil => exact absurd hs (segmentsOf_ne_nil sep xs)
      | cons piece pieces => rfl

/-- The separator stands in no piece. -/
theorem not_mem_of_mem_segmentsOf [DecidableEq α] {sep : α} {cs piece : List α} (h : piece ∈ segmentsOf sep cs) :
    sep ∉ piece := by
  induction cs generalizing piece with
  | nil =>
    obtain rfl : piece = [] := by simpa [segmentsOf] using h
    exact List.not_mem_nil
  | cons c cs ih =>
    rw [segmentsOf] at h
    split at h
    · rcases List.mem_cons.mp h with rfl | h
      · exact List.not_mem_nil
      · exact ih h
    · next hc =>
      cases hs : segmentsOf sep cs with
      | nil => exact absurd hs (segmentsOf_ne_nil sep cs)
      | cons first rest =>
        rw [hs] at h ih
        rcases List.mem_cons.mp h with rfl | h
        · rw [List.mem_cons, not_or]
          exact ⟨Ne.symm hc, ih List.mem_cons_self⟩
        · exact ih (List.mem_cons_of_mem _ h)

/-- Pieces hold nothing but characters of the text. -/
theorem mem_of_mem_segmentsOf [DecidableEq α] {sep c : α} {cs piece : List α} (h : piece ∈ segmentsOf sep cs)
    (hc : c ∈ piece) :
    c ∈ cs := by
  induction cs generalizing piece with
  | nil =>
    obtain rfl : piece = [] := by simpa [segmentsOf] using h
    cases hc
  | cons d cs ih =>
    rw [segmentsOf] at h
    split at h
    · rcases List.mem_cons.mp h with rfl | h
      · cases hc
      · exact List.mem_cons_of_mem _ (ih h hc)
    · cases hs : segmentsOf sep cs with
      | nil => exact absurd hs (segmentsOf_ne_nil sep cs)
      | cons first rest =>
        rw [hs] at h ih
        rcases List.mem_cons.mp h with rfl | h
        · rcases List.mem_cons.mp hc with rfl | hc
          · exact List.mem_cons_self
          · exact List.mem_cons_of_mem _ (ih List.mem_cons_self hc)
        · exact List.mem_cons_of_mem _ (ih (List.mem_cons_of_mem _ h) hc)

/-- Every other character stands in a piece. -/
theorem exists_mem_segmentsOf [DecidableEq α] {sep c : α} {cs : List α} (h : c ∈ cs) (hc : c ≠ sep) :
    ∃ piece ∈ segmentsOf sep cs, c ∈ piece := by
  induction cs with
  | nil => cases h
  | cons d cs ih =>
    rw [segmentsOf]
    by_cases hd : d = sep
    · rw [if_pos hd]
      rcases List.mem_cons.mp h with rfl | h
      · exact absurd hd hc
      · obtain ⟨piece, hpiece, hmem⟩ := ih h
        exact ⟨piece, List.mem_cons_of_mem _ hpiece, hmem⟩
    · rw [if_neg hd]
      cases hs : segmentsOf sep cs with
      | nil => exact absurd hs (segmentsOf_ne_nil sep cs)
      | cons first rest =>
        rw [hs] at ih
        rcases List.mem_cons.mp h with rfl | h
        · exact ⟨c :: first, List.mem_cons_self, List.mem_cons_self⟩
        · obtain ⟨piece, hpiece, hmem⟩ := ih h
          rcases List.mem_cons.mp hpiece with rfl | hpiece
          · exact ⟨d :: piece, List.mem_cons_self, List.mem_cons_of_mem _ hmem⟩
          · exact ⟨piece, List.mem_cons_of_mem _ hpiece, hmem⟩

/-- A text without the separator goes on in the last piece. -/
theorem exists_segmentsOf_append [DecidableEq α] {sep : α} {ending : List α} (h : sep ∉ ending) (cs : List α) :
    ∃ before last, segmentsOf sep cs = before ++ [last] ∧ segmentsOf sep (cs ++ ending) =
      before ++ [last ++ ending] := by
  induction cs with
  | nil => exact ⟨[], [], rfl, segmentsOf_of_not_mem h⟩
  | cons c cs ih =>
    obtain ⟨before, last, hcs, hlonger⟩ := ih
    by_cases hc : c = sep
    · refine ⟨[] :: before, last, ?_, ?_⟩
      · rw [segmentsOf, if_pos hc, hcs, List.cons_append]
      · rw [List.cons_append, segmentsOf, if_pos hc, hlonger, List.cons_append]
    · rw [List.cons_append, segmentsOf, segmentsOf, if_neg hc, if_neg hc, hcs, hlonger]
      cases before with
      | nil => exact ⟨[], c :: last, rfl, rfl⟩
      | cons first before => exact ⟨(c :: first) :: before, last, rfl, rfl⟩

theorem segments_append (sep : Char) (s t : String) :
    segments sep (s ++ String.ofList [sep] ++ t) = segments sep s ++ segments sep t := by
  simp [segments, segmentsOf_append_cons]

theorem segments_of_not_mem {sep : Char} {s : String} (h : sep ∉ s.toList) : segments sep s = [s] := by
  simp [segments, segmentsOf_of_not_mem h]

theorem segments_joined {sep : Char} {parts : List String} (hne : parts ≠ [])
    (h : ∀ s ∈ parts, sep ∉ s.toList) : segments sep (joined sep parts) = parts := by
  have hpieces : ∀ piece ∈ parts.map String.toList, sep ∉ piece := by
    intro piece hp
    obtain ⟨s, hs, rfl⟩ := List.mem_map.mp hp
    exact h s hs
  rw [segments, joined, String.toList_ofList, segmentsOf_joinWith (by simpa using hne) hpieces, List.map_map]
  simp [Function.comp_def]

/-- Nothing is lost by cutting a string. -/
theorem joined_segments (sep : Char) (s : String) : joined sep (segments sep s) = s := by
  have hpieces : (segments sep s).map String.toList = segmentsOf sep s.toList := by
    simp [segments, Function.comp_def]
  rw [joined, hpieces, joinWith_segmentsOf, String.ofList_toList]

theorem joined_cons (sep : Char) (first : String) {parts : List String} (h : parts ≠ []) :
    joined sep (first :: parts) = first ++ String.ofList [sep] ++ joined sep parts := by
  obtain ⟨second, rest, rfl⟩ := List.exists_cons_of_ne_nil h
  rw [← String.toList_inj]
  simp [joined, joinWith]

/-- Pieces that are put together in two parts. -/
theorem joinWith_append (sep : α) : ∀ {pieces more : List (List α)}, pieces ≠ [] → more ≠ [] →
    joinWith sep (pieces ++ more) = joinWith sep pieces ++ sep :: joinWith sep more
  | [], _, h, _ => absurd rfl h
  | [piece], [], _, h => absurd rfl h
  | [piece], next :: more, _, _ => rfl
  | piece :: next :: pieces, more, _, hmore => by
    have ih := joinWith_append sep (List.cons_ne_nil next pieces) hmore
    simp only [List.cons_append, joinWith] at ih ⊢
    rw [ih, List.append_assoc]
    rfl

theorem joined_append_singleton (sep : Char) {parts : List String} (h : parts ≠ []) (last : String) :
    joined sep (parts ++ [last]) = joined sep parts ++ String.ofList [sep] ++ last := by
  rw [joined, List.map_append, List.map_singleton, joinWith_append _ (by simpa using h) (by simp)]
  simp [joined, joinWith, String.ofList_append, ← String.toList_inj]

theorem joined_append_append (sep : Char) (parts : List String) (last ending : String) :
    joined sep (parts ++ [last ++ ending]) = joined sep (parts ++ [last]) ++ ending := by
  by_cases h : parts = []
  · simp [h, joined, joinWith]
  · rw [joined_append_singleton sep h, joined_append_singleton sep h, ← String.append_assoc]

/-- Strings without the separator are told apart by their join. -/
theorem joined_inj {sep : Char} {parts parts' : List String} (hne : parts ≠ []) (hne' : parts' ≠ [])
    (h : ∀ s ∈ parts, sep ∉ s.toList) (h' : ∀ s ∈ parts', sep ∉ s.toList) :
    joined sep parts = joined sep parts' ↔ parts = parts' := by
  refine ⟨fun hjoined => ?_, congrArg _⟩
  rw [← segments_joined hne h, hjoined, segments_joined hne' h']

/-- A character of joined strings stands in one of them, unless it is the separator. -/
theorem not_mem_joined {sep c : Char} (hsep : c ≠ sep) {parts : List String} (h : ∀ s ∈ parts, c ∉ s.toList) :
    c ∉ (joined sep parts).toList := by
  induction parts with
  | nil => exact List.not_mem_nil
  | cons first rest ih =>
    have hfirst : c ∉ first.toList := h first List.mem_cons_self
    cases rest with
    | nil => simpa [joined, joinWith] using hfirst
    | cons second rest =>
      have hrest := ih fun s hs => h s (List.mem_cons_of_mem _ hs)
      rw [joined_cons sep first (List.cons_ne_nil second rest)]
      simp [hfirst, hsep, hrest]

theorem joined_ne_empty {sep : Char} {parts : List String} (hne : parts ≠ []) (h : ∀ s ∈ parts, s ≠ "") :
    joined sep parts ≠ "" := by
  obtain ⟨first, rest, rfl⟩ := List.exists_cons_of_ne_nil hne
  have hfirst : first ≠ "" := h first List.mem_cons_self
  cases rest with
  | nil => simpa [joined, joinWith] using hfirst
  | cons second rest =>
    rw [joined_cons sep first (List.cons_ne_nil second rest)]
    simp

theorem endsWith_append (front ending : String) : endsWith ending (front ++ ending) = true := by
  rw [endsWith, List.isSuffixOf_iff_suffix, String.toList_append]
  exact List.suffix_append _ _

theorem exists_append_of_endsWith {ending s : String} (h : endsWith ending s = true) :
    ∃ front, s = front ++ ending := by
  obtain ⟨front, hfront⟩ := List.isSuffixOf_iff_suffix.mp h
  exact ⟨String.ofList front, by rw [← String.toList_inj, String.toList_append, String.toList_ofList, hfront]⟩

theorem dropEnding?_append (ending s : String) : dropEnding? ending (s ++ ending) = some s := by
  rw [dropEnding?, ← endsWith, if_pos (endsWith_append s ending)]
  simp

end InteropBindings.Text
