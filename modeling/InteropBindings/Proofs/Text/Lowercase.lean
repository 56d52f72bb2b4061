import InteropBindings.Text.Identifier
import InteropBindings.Text.Lowercase

/-!
# Lowercase and the characters of paths

Slashes, backslashes and points are what gives a path its form. Like all ASCII characters without case that stand before
the small letters, lowercasing makes none of them out of anything else and changes none of them (`mem_lowercase_iff`),
so the lowercase of an identifier, or of any other text without them, is a single name.
-/

namespace InteropBindings.Text

/-- A character that gives a path its form. -/
def isPathMark (c : Char) : Bool := c == '/' || c == '\\' || c == '.'

/-- A text that can stand as one identifier. -/
def IsIdentifier (s : String) : Prop := s ≠ "" ∧ ∀ c ∈ s.toList, isIdentifierPart c = true

instance : DecidablePred IsIdentifier := fun s =>
  decidable_of_iff (s ≠ "" ∧ s.toList.all isIdentifierPart = true) (and_congr_right fun _ => List.all_eq_true)

/-- A character that is no letter and stands before the small letters. Slashes, backslashes and points are such. -/
def isCaseless (c : Char) : Bool := 0 < c.toNat && c.toNat ≤ 0x5C && c.toLower == c

theorem isCaseless_of_isPathMark {c : Char} (h : isPathMark c = true) : isCaseless c = true := by
  simp only [isPathMark, Bool.or_eq_true, beq_iff_eq] at h
  obtain (rfl | rfl) | rfl := h <;> decide

/-- The lowercase of a character beyond ASCII lies behind all characters without case. -/
theorem lt_shift_of_mem_caseRuns : ∀ run ∈ caseRuns, 0x5C < (run.first : Int) + run.shift := by
  decide +kernel

/-- Numbers behind all characters without case stand for none. -/
theorem isCaseless_ofNat {n : Nat} (h : 0x5C < n) : isCaseless (Char.ofNat n) = false := by
  have hn : (Char.ofNat n).toNat = n ∨ (Char.ofNat n).toNat = 0 := by
    by_cases hv : n.isValidChar
    · left
      rw [Char.ofNat, dif_pos hv]
      rfl
    · right
      simp [Char.ofNat, hv]
  unfold isCaseless
  obtain hn | hn := hn <;> rw [hn]
  · have hbound : decide (n ≤ 0x5C) = false := decide_eq_false (by omega)
    rw [hbound, Bool.and_false, Bool.false_and]
  · rfl

theorem eq_of_isCaseless_toLower : ∀ n < 0x80, isCaseless (Char.ofNat n).toLower = true →
    (Char.ofNat n).toLower = Char.ofNat n := by
  decide

/-- A single character becomes one without case only if it is that character. -/
theorem eq_of_isCaseless_lowerChar {c : Char} (h : isCaseless (lowerChar c) = true) : lowerChar c = c := by
  unfold lowerChar at h ⊢
  by_cases hc : c.toNat < 0x80
  · rw [if_pos hc] at h ⊢
    have := eq_of_isCaseless_toLower c.toNat hc
    rw [Char.ofNat_toNat] at this
    exact this h
  · rw [if_neg hc] at h ⊢
    cases hrun : caseRuns.find? (·.holds c.toNat) with
    | none => rfl
    | some run =>
      rw [hrun] at h
      have hmem := lt_shift_of_mem_caseRuns run (List.mem_of_find?_eq_some hrun)
      have hholds := List.find?_some hrun
      simp only [CaseRun.holds, Bool.and_eq_true, decide_eq_true_eq] at hholds
      rw [isCaseless_ofNat (by omega)] at h
      cases h

/-- A character without case in the lowercase of a character is that character. -/
theorem eq_of_mem_lowerBetween {before after : List Char} {c d : Char} (h : c ∈ lowerBetween before d after)
    (hc : isCaseless c = true) : c = d := by
  unfold lowerBetween at h
  split at h
  · have hnone : ['i', Char.ofNat 0x307].any isCaseless = false := by decide
    exact absurd hc (List.any_eq_false.mp hnone c h)
  · split at h
    · have hne : ∀ n ∈ [0x3C2, 0x3C3], isCaseless (Char.ofNat n) = false := by decide
      rw [List.mem_singleton.mp h, hne _ (by split <;> simp)] at hc
      cases hc
    · obtain rfl := List.mem_singleton.mp h
      exact eq_of_isCaseless_lowerChar hc

theorem lowerBetween_of_isCaseless {c : Char} (hc : isCaseless c = true) (before after : List Char) :
    lowerBetween before c after = [c] := by
  simp only [isCaseless, Bool.and_eq_true, decide_eq_true_eq, beq_iff_eq] at hc
  rw [lowerBetween_ascii before after (by omega), hc.2]

/-- **Lowercasing keeps characters without case** and makes none. -/
theorem mem_lowercase_iff {cs : List Char} {c : Char} (hc : isCaseless c = true) : c ∈ lowercase cs ↔ c ∈ cs := by
  suffices hsuff : ∀ before, c ∈ lowercaseAfter before cs ↔ c ∈ cs from hsuff []
  induction cs with
  | nil => exact fun _ => Iff.rfl
  | cons d rest ih =>
    intro before
    rw [lowercaseAfter, List.mem_append, List.mem_cons, ih]
    refine or_congr_left ⟨fun h => eq_of_mem_lowerBetween h hc, ?_⟩
    rintro rfl
    rw [lowerBetween_of_isCaseless hc]
    exact List.mem_singleton_self c

/-- A lowercase of characters without case alone is the text itself. -/
theorem lowercase_eq_of_isCaseless {cs : List Char} (h : ∀ c ∈ lowercase cs, isCaseless c = true) :
    lowercase cs = cs := by
  suffices hsuff : ∀ before, (∀ c ∈ lowercaseAfter before cs, isCaseless c = true) → lowercaseAfter before cs = cs from
    hsuff [] h
  clear h
  induction cs with
  | nil => exact fun _ _ => rfl
  | cons d rest ih =>
    intro before h
    rw [lowercaseAfter] at h ⊢
    rw [ih _ fun c hc => h c (List.mem_append_right _ hc)]
    have hfirst : ∀ c ∈ lowerBetween before d rest, c = d := fun c hc =>
      eq_of_mem_lowerBetween hc (h c (List.mem_append_left _ hc))
    -- The dotted capital I has a lowercase of two characters, and they are not both the same.
    unfold lowerBetween at hfirst ⊢
    split at hfirst
    · have hsame := (hfirst 'i' (by simp)).trans (hfirst (Char.ofNat 0x307) (by simp)).symm
      exact absurd hsame (by decide)
    · next hdotted =>
      rw [if_neg hdotted]
      split at hfirst
      · next hsigma => rw [if_pos hsigma, hfirst _ List.mem_cons_self, List.singleton_append]
      · next hsigma => rw [if_neg hsigma, hfirst _ List.mem_cons_self, List.singleton_append]

/-- Lowercasing leaves a text that is not empty. -/
theorem lowercase_ne_nil {cs : List Char} (h : cs ≠ []) : lowercase cs ≠ [] := by
  cases cs with
  | nil => exact absurd rfl h
  | cons c rest =>
    have hc : lowerBetween [] c rest ≠ [] := by
      unfold lowerBetween
      split
      · exact List.cons_ne_nil _ _
      · split <;> exact List.cons_ne_nil _ _
    rw [lowercase, lowercaseAfter]
    exact List.append_ne_nil_of_left_ne_nil hc _

theorem lower_ne_empty {s : String} (h : s ≠ "") : lower s ≠ "" := by
  intro hs
  have hne : s.toList ≠ [] := fun he => h (by rw [← String.ofList_toList (s := s), he])
  exact lowercase_ne_nil hne (by rw [← String.toList_ofList (l := lowercase s.toList), ← lower, hs]; rfl)

theorem mem_lower_iff {s : String} {c : Char} (hc : isCaseless c = true) : c ∈ (lower s).toList ↔ c ∈ s.toList := by
  rw [lower, String.toList_ofList, mem_lowercase_iff hc]

theorem eq_of_lower_eq {s marks : String} (h : lower s = marks) (hmarks : ∀ c ∈ marks.toList, isCaseless c = true) :
    s = marks := by
  have hlower : lowercase s.toList = marks.toList := by rw [← h, lower, String.toList_ofList]
  have hsame : lowercase s.toList = s.toList := lowercase_eq_of_isCaseless (hlower ▸ hmarks)
  exact String.toList_inj.mp (hsame.symm.trans hlower)

/-! ## Texts without slashes -/

/-- A text that holds neither slashes nor backslashes. -/
def IsSlashFree (s : String) : Prop := '/' ∉ s.toList ∧ '\\' ∉ s.toList

instance : DecidablePred IsSlashFree := fun s => inferInstanceAs (Decidable ('/' ∉ s.toList ∧ '\\' ∉ s.toList))

theorem IsSlashFree.lower {s : String} (h : IsSlashFree s) : IsSlashFree (lower s) :=
  ⟨fun hmem => h.1 ((mem_lower_iff rfl).mp hmem), fun hmem => h.2 ((mem_lower_iff rfl).mp hmem)⟩

/-- A text that is not empty and holds no mark. -/
def IsUnmarked (s : String) : Prop := s ≠ "" ∧ ∀ c ∈ s.toList, isPathMark c = false

instance : DecidablePred IsUnmarked := fun s =>
  decidable_of_iff (s ≠ "" ∧ s.toList.all (fun c => !isPathMark c) = true) (by simp [IsUnmarked, List.all_eq_true])

namespace IsUnmarked

variable {s : String}

theorem not_mem (h : IsUnmarked s) {mark : Char} (hmark : isPathMark mark = true) : mark ∉ s.toList := by
  intro hmem
  rw [h.2 mark hmem] at hmark
  cases hmark

theorem isSlashFree (h : IsUnmarked s) : IsSlashFree s := ⟨h.not_mem rfl, h.not_mem rfl⟩

theorem lower (h : IsUnmarked s) : IsUnmarked (lower s) := by
  refine ⟨lower_ne_empty h.1, fun c hc => ?_⟩
  rw [Bool.eq_false_iff]
  exact fun hmark => h.not_mem hmark ((mem_lower_iff (isCaseless_of_isPathMark hmark)).mp hc)

end IsUnmarked

/-! ## Identifiers -/

theorem isPathMark_of_isIdentifierPart {c : Char} (h : isIdentifierPart c = true) : isPathMark c = false := by
  have hmarks : ['/', '\\', '.'].any isIdentifierPart = false := by decide
  simp only [isPathMark, Bool.or_eq_false_iff, beq_eq_false_iff_ne]
  refine ⟨⟨?_, ?_⟩, ?_⟩ <;>
    · rintro rfl
      exact List.any_eq_false.mp hmarks _ (by simp) h

theorem IsIdentifier.isUnmarked {s : String} (h : IsIdentifier s) : IsUnmarked s :=
  ⟨h.1, fun c hc => isPathMark_of_isIdentifierPart (h.2 c hc)⟩

end InteropBindings.Text
