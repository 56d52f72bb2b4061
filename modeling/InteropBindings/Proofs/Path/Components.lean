import InteropBindings.Path
import InteropBindings.Proofs.Text.RawText

/-!
# Components of paths that are put together

A path that is followed from another one has the components of both, whatever its text is, as long as it does not start
over (`Path.components_push`). The steps that a text stands for on the way down are `Path.stepsOf`: fillers count for
nothing, two points lead up, and everything else is a name.
-/

namespace InteropBindings

open Text

namespace Path

/-! ## Steps -/

/-- What the start of a path stands for. -/
def Anchor.components : Anchor → List Component
  | .root => [.root]
  | .here => [.here]
  | .none => []

/-- What a text stands for on the way on from a directory. -/
def stepsOf (text : RawText) : List Component := (segmentsOf slash text.toList).filterMap componentOf?

@[simp] theorem stepsOf_empty : stepsOf "" = [] := rfl

/-- Two points at the end are the only step that is no name. -/
theorem componentOf?_eq_some {piece : List UInt8} {c : Component} (h : componentOf? piece = some c) :
    (piece = [point, point] ∧ c = .parent) ∨ c = .normal (RawText.ofList piece) := by
  unfold componentOf? at h
  split at h
  · cases h
  · split at h
    · next hp => exact .inl ⟨beq_iff_eq.mp hp, (Option.some.inj h).symm⟩
    · exact .inr (Option.some.inj h).symm

theorem eq_parent_or_normal_of_mem_stepsOf {text : RawText} {c : Component} (h : c ∈ stepsOf text) :
    c = .parent ∨ ∃ name, c = .normal name := by
  obtain ⟨piece, _, hc⟩ := List.mem_filterMap.mp h
  rcases componentOf?_eq_some hc with ⟨_, rfl⟩ | rfl
  · exact .inl rfl
  · exact .inr ⟨_, rfl⟩

/-- A text leads up where two points stand between its slashes. -/
theorem parent_mem_stepsOf_iff {text : RawText} : Component.parent ∈ stepsOf text ↔ ↑".." ∈ text.segments slash := by
  rw [stepsOf, RawText.segments, List.mem_filterMap, List.mem_map]
  constructor
  · rintro ⟨piece, hpiece, hc⟩
    rcases componentOf?_eq_some hc with ⟨rfl, _⟩ | h
    · exact ⟨_, hpiece, rfl⟩
    · cases h
  · rintro ⟨piece, hpiece, hc⟩
    have : piece = [point, point] := by
      rw [← RawText.toList_ofList piece, hc]
      rfl
    subst this
    exact ⟨_, hpiece, rfl⟩

theorem stepsOf_append_slash (a b : RawText) : stepsOf (a ++ "/" ++ b) = stepsOf a ++ stepsOf b := by
  have h : (a ++ "/" ++ b).toList = a.toList ++ slash :: b.toList := by simp
  rw [stepsOf, h, segmentsOf_append_cons, List.filterMap_append]
  rfl

/-! ## Components -/

theorem split_eq {p : Path} {first : List UInt8} {rest : List (List UInt8)}
    (h : segmentsOf slash p.text.toList = first :: rest) :
    p.split = if first = [] ∧ rest ≠ [] then (.root, rest) else if first = [point] then (.here, rest)
      else (.none, first :: rest) := by
  simp [split, h]

/-- A text whose first piece is empty goes on behind a slash. -/
theorem rest_ne_nil_of_segmentsOf {cs : List UInt8} {rest : List (List UInt8)} (h : segmentsOf slash cs = [] :: rest)
    (hcs : cs ≠ []) : rest ≠ [] := by
  rintro rfl
  apply hcs
  rw [← joinWith_segmentsOf slash cs, h]
  rfl

/-- The paths that start at the root are the absolute ones. -/
theorem anchor_eq_root_iff (p : Path) : p.split.1 = .root ↔ p.isAbsolute = true := by
  have habsolute : p.isAbsolute = [slash].isPrefixOf p.text.toList := rfl
  rw [habsolute]
  cases htext : p.text.toList with
  | nil =>
    have hs : segmentsOf slash p.text.toList = [] :: [] := by rw [htext]; rfl
    rw [split_eq hs]
    decide
  | cons c cs =>
    by_cases hc : c = slash
    · subst hc
      have hs : segmentsOf slash p.text.toList = [] :: segmentsOf slash cs := by rw [htext, segmentsOf, if_pos rfl]
      rw [split_eq hs, if_pos ⟨rfl, segmentsOf_ne_nil _ _⟩]
      simp
    · cases hrest : segmentsOf slash cs with
      | nil => exact absurd hrest (segmentsOf_ne_nil _ _)
      | cons piece pieces =>
        have hs : segmentsOf slash p.text.toList = (c :: piece) :: pieces := by rw [htext, segmentsOf, if_neg hc, hrest]
        rw [split_eq hs, if_neg (by simp)]
        split <;> simp [Ne.symm hc]

/-- The components of a path are its start and its steps. -/
theorem components_eq (p : Path) : p.components = p.split.1.components ++ stepsOf p.text := by
  cases hs : segmentsOf slash p.text.toList with
  | nil => exact absurd hs (segmentsOf_ne_nil _ _)
  | cons first rest =>
    have hempty : componentOf? [] = none := rfl
    have hpoint : componentOf? [point] = none := rfl
    rw [components, split_eq hs, stepsOf, hs]
    by_cases h₁ : first = [] ∧ rest ≠ []
    · simp [h₁, Anchor.components, hempty]
    · by_cases h₂ : first = [point]
      · simp [h₂, Anchor.components, hpoint]
      · simp [h₁, h₂, Anchor.components]

/-- Where a path starts does not depend on what stands behind a slash. -/
theorem split_append_slash {a : RawText} (ha : a ≠ "") (b : RawText) :
    (split ⟨a ++ "/" ++ b⟩).1 = (split ⟨a⟩).1 := by
  cases hs : segmentsOf slash a.toList with
  | nil => exact absurd hs (segmentsOf_ne_nil _ _)
  | cons first rest =>
    have htext : (a ++ "/" ++ b).toList = a.toList ++ slash :: b.toList := by simp
    have hs' : segmentsOf slash (a ++ "/" ++ b).toList = first :: (rest ++ segmentsOf slash b.toList) := by
      rw [htext, segmentsOf_append_cons, hs]
      rfl
    have hne : rest ++ segmentsOf slash b.toList ≠ [] := by simp [segmentsOf_ne_nil]
    rw [split_eq hs, split_eq hs']
    by_cases hfirst : first = []
    · subst hfirst
      simp [hne, rest_ne_nil_of_segmentsOf hs (by simpa using ha)]
    · by_cases hpoint : first = [point] <;> simp [hfirst, hpoint]

/-- A text behind a slash adds its steps. -/
theorem components_append_slash {a : RawText} (ha : a ≠ "") (b : RawText) :
    components ⟨a ++ "/" ++ b⟩ = components ⟨a⟩ ++ stepsOf b := by
  rw [components_eq, split_append_slash ha, stepsOf_append_slash, components_eq, List.append_assoc]

theorem components_slash_append (b : RawText) : components ⟨"/" ++ b⟩ = .root :: stepsOf b := by
  have hs : segmentsOf slash ("/" ++ b).toList = [] :: segmentsOf slash b.toList := by simp [segmentsOf]
  rw [components, split_eq hs, if_pos ⟨rfl, segmentsOf_ne_nil _ _⟩]
  rfl

/-- A text behind a path with a slash at its end adds its steps. -/
theorem components_append_of_endsWith {a : RawText} (ha : a.endsWith "/" = true) (b : RawText) :
    components ⟨a ++ b⟩ = components ⟨a⟩ ++ stepsOf b := by
  obtain ⟨front, hfront⟩ := List.isSuffixOf_iff_suffix.mp ha
  obtain rfl : RawText.ofList front ++ "/" = a := by
    rw [← RawText.toList_inj, ← hfront]
    simp
  by_cases hnil : RawText.ofList front = ""
  · have hroot := components_slash_append ""
    rw [RawText.append_empty] at hroot
    rw [hnil, RawText.empty_append, components_slash_append, hroot]
    rfl
  · have hend := components_append_slash hnil ""
    rw [RawText.append_empty] at hend
    rw [components_append_slash hnil, hend, stepsOf_empty, List.append_nil]

/-! ## Going down -/

/-- The text of a path with a slash at its end, unless it is empty: what a text that is followed from the path stands
behind. -/
def front (p : Path) : RawText := if p.text.isEmpty || p.text.endsWith "/" then p.text else p.text ++ "/"

theorem front_ne_empty {p : Path} (h : p.text ≠ "") : p.front ≠ "" := by
  unfold front
  split
  · exact h
  · simp

/-- What a path stands in front of is nothing, or has a slash at its end. -/
theorem front_spec (p : Path) : p.front = "" ∨ p.front.endsWith "/" = true := by
  unfold front
  split
  · next h =>
    rcases Bool.or_eq_true_iff.mp h with h | h
    · exact .inl (RawText.isEmpty_iff.mp h)
    · exact .inr h
  · exact .inr (List.isSuffixOf_iff_suffix.mpr ⟨p.text.toList, by simp⟩)

/-- What is followed from a path is shown on its own. -/
theorem shown_front_append (p : Path) (b : RawText) : (p.front ++ b).shown = p.front.shown ++ b.shown := by
  rcases front_spec p with hempty | hend
  · rw [hempty, RawText.empty_append, RawText.shown_empty, String.empty_append]
  · have hne : "/" ≠ "" := by decide
    obtain ⟨a, ha⟩ := RawText.endsWith_iff.mp hend
    rw [ha, RawText.shown_append_ofString_append a hne, RawText.shown_append_ofString]

theorem front_front (p : Path) : front ⟨p.front⟩ = p.front := by
  have h : (p.front.isEmpty || p.front.endsWith "/") = true := by
    rcases front_spec p with h | h <;> simp [h]
  rw [front, if_pos h]

theorem isAbsolute_of_not_mem {s : RawText} (h : slash ∉ s.toList) : isAbsolute ⟨s⟩ = false := by
  rw [isAbsolute, RawText.beginsWith, Bool.eq_false_iff]
  intro hs
  exact h ((List.isPrefixOf_iff_prefix.mp hs).subset (by simp))

/-- A path that does not start over stands behind the one that it is followed from. -/
theorem push_eq (p : Path) {q : Path} (h : q.isAbsolute = false) : p.push q = ⟨p.front ++ q.text⟩ := by
  rw [push, if_neg (by simp [h]), front]
  split <;> rfl

theorem components_front_append {p : Path} (hp : p.text ≠ "") (b : RawText) :
    components ⟨p.front ++ b⟩ = p.components ++ stepsOf b := by
  have hempty : p.text.isEmpty = false := by simpa using hp
  cases hend : p.text.endsWith "/" with
  | true => rw [front, hempty, hend, Bool.or_true, if_pos rfl, components_append_of_endsWith hend]
  | false => rw [front, hempty, hend, Bool.or_false, if_neg Bool.false_ne_true, components_append_slash hp]

/-- **A path followed from another one** has the components of both. -/
theorem components_push {p q : Path} (hp : p.text ≠ "") (hq : q.isAbsolute = false) :
    (p.push q).components = p.components ++ stepsOf q.text := by
  rw [push_eq p hq, components_front_append hp]

/-! ## Slashes for backslashes -/

theorem replaceChar_append (old new : Char) (s t : String) :
    replaceChar old new (s ++ t) = replaceChar old new s ++ replaceChar old new t := by
  simp [replaceChar]

theorem slashed_append_ofString (a : RawText) (s : String) : slashed ⟨a ++ s⟩ = slashed ⟨a⟩ ++ slashed ⟨s⟩ := by
  simp only [slashed, RawText.shown_append_ofString, RawText.shown_ofString, replaceChar_append]

theorem slashed_append_slash_append (a b : RawText) : slashed ⟨a ++ "/" ++ b⟩ = slashed ⟨a⟩ ++ "/" ++ slashed ⟨b⟩ := by
  have hslash : replaceChar '\\' '/' "/" = "/" := by decide
  have hne : "/" ≠ "" := by decide
  simp only [slashed, RawText.shown_append_ofString_append a hne, replaceChar_append, hslash]

theorem slashed_of_not_mem {s : String} (h : '\\' ∉ s.toList) : slashed ⟨s⟩ = s := by
  have hsame : s.toList.map (fun c => if c = '\\' then '/' else c) = s.toList := by
    refine (List.map_congr_left fun c hc => if_neg ?_).trans (List.map_id _)
    rintro rfl
    exact h hc
  rw [slashed, RawText.shown_ofString, replaceChar, hsame, String.ofList_toList]

theorem not_mem_slashed (p : Path) : '\\' ∉ p.slashed.toList := by
  rw [slashed, replaceChar, String.toList_ofList, List.mem_map]
  rintro ⟨c, _, hc⟩
  split at hc
  · cases hc
  · next hne => exact hne hc

theorem slashed_ne_empty {a : RawText} (h : a ≠ "") : slashed ⟨a⟩ ≠ "" := by
  simpa [slashed, replaceChar] using h

theorem endsWith_slashed {a : RawText} (h : a.endsWith "/" = true) :
    (slashed ⟨a⟩ : RawText).endsWith "/" = true := by
  obtain ⟨front, rfl⟩ := RawText.endsWith_iff.mp h
  refine RawText.endsWith_iff.mpr ⟨slashed ⟨front⟩, ?_⟩
  rw [slashed_append_ofString, ← RawText.ofString_append]
  rfl

/-- A text followed from a path adds its steps, also where all backslashes become slashes. -/
theorem components_slashed_front_append {p : Path} (hp : p.text ≠ "") (b : RawText) :
    components ⟨slashed ⟨p.front ++ b⟩⟩ = components ⟨p.slashed⟩ ++ stepsOf (slashed ⟨b⟩) := by
  have hempty : p.text.isEmpty = false := by simpa using hp
  cases hend : p.text.endsWith "/" with
  | true =>
    obtain ⟨a, ha⟩ := RawText.endsWith_iff.mp hend
    have hp' : p.slashed = slashed ⟨a⟩ ++ "/" := by
      rw [slashed, ha, ← slashed, slashed_append_ofString]
      rfl
    rw [front, hempty, hend, Bool.or_true, if_pos rfl, ha, slashed_append_slash_append, ← hp', RawText.ofString_append,
      components_append_of_endsWith (endsWith_slashed hend)]
  | false =>
    rw [front, hempty, hend, Bool.or_false, if_neg Bool.false_ne_true, slashed_append_slash_append,
      RawText.ofString_append, RawText.ofString_append, components_append_slash]
    simpa using slashed_ne_empty hp

/-! ## Names -/

/-- A text that is one component, a name. -/
def IsName (s : RawText) : Prop := s ≠ "" ∧ s ≠ "." ∧ s ≠ ".." ∧ slash ∉ s.toList

instance : DecidablePred IsName := fun s => inferInstanceAs (Decidable (s ≠ "" ∧ s ≠ "." ∧ s ≠ ".." ∧ slash ∉ s.toList))

theorem isName_ofString {s : String} : IsName s ↔ s ≠ "" ∧ s ≠ "." ∧ s ≠ ".." ∧ '/' ∉ s.toList := by
  simp only [IsName, ne_eq, RawText.ofString_inj, RawText.slash_mem_ofString]

theorem IsName.shown {a : RawText} (h : IsName a) : IsName a.shown := by
  have hne : ∀ s : String, s.toList.all (·.toNat < 0x80) = true → a ≠ s → a.shown ≠ s := fun s hs ha he =>
    ha ((RawText.shown_eq_iff_of_ascii hs).mp he)
  refine isName_ofString.mpr ⟨hne "" (by decide) h.1, hne "." (by decide) h.2.1, hne ".." (by decide) h.2.2.1, ?_⟩
  exact fun hslash => h.2.2.2 (RawText.mem_of_mem_shown hslash (by decide))

/-- A text without slashes is a name when something longer than two points stands at its end. -/
theorem isName_append {stem ending : RawText} (h : slash ∉ stem.toList) (hending : slash ∉ ending.toList)
    (hlength : 2 < ending.size) : IsName (stem ++ ending) := by
  have hne : ∀ t : RawText, t.size ≤ 2 → stem ++ ending ≠ t := by
    rintro t ht rfl
    rw [RawText.size_append] at ht
    omega
  refine ⟨hne "" (by decide), hne "." (by decide), hne ".." (by decide), ?_⟩
  rw [RawText.toList_append, List.mem_append, not_or]
  exact ⟨h, hending⟩

/-- A text that is one step: a name, or two points. -/
def IsStep (a : RawText) : Prop := a ≠ "" ∧ a ≠ "." ∧ slash ∉ a.toList

/-- Where a step leads. -/
def stepOf (a : RawText) : Component := if a = ".." then .parent else .normal a

theorem IsName.isStep {a : RawText} (h : IsName a) : IsStep a := ⟨h.1, h.2.1, h.2.2.2⟩

theorem IsName.stepOf {a : RawText} (h : IsName a) : stepOf a = .normal a := if_neg h.2.2.1

theorem map_stepOf {names : List RawText} (h : ∀ n ∈ names, IsName n) : names.map stepOf = names.map .normal :=
  List.map_congr_left fun n hn => (h n hn).stepOf

theorem stepOf_inj {a b : RawText} (h : stepOf a = stepOf b) : a = b := by
  unfold stepOf at h
  split at h <;> split at h <;> simp_all

/-- The piece of a step is its component. -/
theorem IsStep.componentOf? {a : RawText} (h : IsStep a) : componentOf? a.toList = some (stepOf a) := by
  have hne : ∀ t : RawText, a.toList = t.toList ↔ a = t := fun t => RawText.toList_inj
  have h₁ : a.toList ≠ [] := mt (hne "").mp h.1
  have h₂ : a.toList ≠ [point] := mt (hne ".").mp h.2.1
  have h₃ : a.toList = [point, point] ↔ a = ".." := hne ".."
  by_cases hparent : a = ".."
  · subst hparent
    rfl
  · have hpoints : a.toList ≠ [point, point] := mt h₃.mp hparent
    rw [stepOf, if_neg hparent]
    simp [Path.componentOf?, isFiller, h₁, h₂, hpoints]

theorem IsName.componentOf? {a : RawText} (h : IsName a) : componentOf? a.toList = some (.normal a) := by
  rw [h.isStep.componentOf?, h.stepOf]

theorem filterMap_steps {steps : List RawText} (h : ∀ a ∈ steps, IsStep a) :
    (steps.map RawText.toList).filterMap Path.componentOf? = steps.map stepOf := by
  induction steps with
  | nil => rfl
  | cons a steps ih =>
    rw [List.map_cons, List.filterMap_cons_some (h a List.mem_cons_self).componentOf?,
      ih fun b hb => h b (List.mem_cons_of_mem _ hb), List.map_cons]

theorem filterMap_names {names : List RawText} (h : ∀ n ∈ names, IsName n) :
    (names.map RawText.toList).filterMap Path.componentOf? = names.map .normal := by
  rw [filterMap_steps fun n hn => (h n hn).isStep, map_stepOf h]

theorem segmentsOf_joined_steps {steps : List RawText} (hne : steps ≠ []) (h : ∀ a ∈ steps, IsStep a) :
    segmentsOf slash (RawText.joined slash steps).toList = steps.map RawText.toList := by
  rw [← RawText.map_toList_segments, RawText.segments_joined hne fun a ha => (h a ha).2.2]

theorem stepsOf_joined_steps {steps : List RawText} (h : ∀ a ∈ steps, IsStep a) :
    stepsOf (RawText.joined slash steps) = steps.map stepOf := by
  by_cases hnil : steps = []
  · subst hnil
    rfl
  · rw [stepsOf, segmentsOf_joined_steps hnil h, filterMap_steps h]

theorem IsName.stepsOf {a : RawText} (h : IsName a) : stepsOf a = [.normal a] := by
  have hjoined : Path.stepsOf (RawText.joined slash [a]) = [a].map Path.stepOf :=
    stepsOf_joined_steps (by simpa using h.isStep)
  simpa [h.stepOf] using hjoined

/-- The components of joined steps are where they lead. -/
theorem components_joined_steps {steps : List RawText} (h : ∀ a ∈ steps, IsStep a) :
    components ⟨RawText.joined slash steps⟩ = steps.map stepOf := by
  cases steps with
  | nil => rfl
  | cons a steps =>
    have hs := segmentsOf_joined_steps (List.cons_ne_nil a steps) h
    rw [List.map_cons] at hs
    -- The first step is neither empty nor a point, so it is no start.
    have ha := h a List.mem_cons_self
    have hempty : a.toList ≠ [] := fun he => ha.1 (RawText.toList_inj.mp he)
    have hpoint : a.toList ≠ [point] := fun he => ha.2.1 (RawText.toList_inj.mp he)
    have hsplit : split ⟨RawText.joined slash (a :: steps)⟩ = (.none, a.toList :: steps.map RawText.toList) := by
      rw [split_eq (p := ⟨RawText.joined slash (a :: steps)⟩) hs, if_neg (fun he => hempty he.1), if_neg hpoint]
    rw [components_eq, hsplit, stepsOf_joined_steps h]
    rfl

theorem components_joined {names : List RawText} (h : ∀ n ∈ names, IsName n) :
    components ⟨RawText.joined slash names⟩ = names.map .normal := by
  rw [components_joined_steps fun n hn => (h n hn).isStep, map_stepOf h]

theorem IsName.components {s : RawText} (h : IsName s) : components ⟨s⟩ = [.normal s] := by
  have hjoined : Path.components ⟨RawText.joined slash [s]⟩ = [s].map .normal := components_joined (by simpa using h)
  simpa using hjoined

/-- **A name followed from a path** is its last component. -/
theorem IsName.components_join {s : RawText} (h : IsName s) (p : Path) :
    (p.join s).components = p.components ++ [.normal s] := by
  have habsolute : isAbsolute ⟨s⟩ = false := isAbsolute_of_not_mem h.2.2.2
  by_cases hp : p.text = ""
  · have hcomponents : p.components = [] := by rw [show p = ⟨""⟩ from congrArg Path.mk hp]; rfl
    have hfront : p.front = "" := by rw [front, hp]; rfl
    rw [join, push_eq p habsolute, hfront, RawText.empty_append, h.components, hcomponents, List.nil_append]
  · rw [join, components_push hp habsolute, h.stepsOf]

/-- A name of a path is one of its pieces. -/
theorem mem_segmentsOf_of_mem_components {p : Path} {s : RawText} (h : .normal s ∈ p.components) :
    s.toList ∈ segmentsOf slash p.text.toList ∧ Path.componentOf? s.toList = some (.normal s) := by
  have hstart : Component.normal s ∉ p.split.1.components := by
    cases p.split.1 <;> simp [Anchor.components]
  rw [components_eq, List.mem_append, or_iff_right hstart] at h
  obtain ⟨piece, hpiece, hc⟩ := List.mem_filterMap.mp h
  have hs : piece = s.toList := by
    rcases componentOf?_eq_some hc with ⟨_, h⟩ | h
    · cases h
    · cases h
      rw [RawText.toList_ofList]
  exact ⟨hs ▸ hpiece, hs ▸ hc⟩

/-- The names of a path are names. -/
theorem isName_of_mem_components {p : Path} {s : RawText} (h : .normal s ∈ p.components) : IsName s := by
  obtain ⟨hpiece, hc⟩ := mem_segmentsOf_of_mem_components h
  refine ⟨?_, ?_, ?_, not_mem_of_mem_segmentsOf hpiece⟩ <;>
    · rintro rfl
      cases hc

theorem mem_text_of_mem_name {p : Path} {s : RawText} (h : .normal s ∈ p.components) {c : UInt8} (hc : c ∈ s.toList) :
    c ∈ p.text.toList :=
  mem_of_mem_segmentsOf (mem_segmentsOf_of_mem_components h).1 hc

/-- The last component of a path with a file name is that name. -/
theorem fileName_eq_some_iff {p : Path} {s : RawText} :
    p.fileName = some s ↔ ∃ around, p.components = around ++ [.normal s] := by
  unfold fileName
  constructor
  · intro h
    split at h
    · next hlast =>
      cases h
      exact List.getLast?_eq_some_iff.mp hlast
    · cases h
  · rintro ⟨around, h⟩
    rw [List.getLast?_eq_some_iff.mpr ⟨around, h⟩]

/-- A path whose text ends without a slash, with something longer than two points, ends with a name that does so. -/
theorem exists_of_text_append {p : Path} {stem ending : RawText} (h : p.text = stem ++ ending)
    (hending : slash ∉ ending.toList)
    (hlength : 2 < ending.size) : ∃ around rest, p.components = around ++ [.normal (rest ++ ending)] := by
  obtain ⟨before, last, hstem, hsegments⟩ := exists_segmentsOf_append hending stem.toList
  have hlast : slash ∉ (RawText.ofList last).toList := by
    rw [RawText.toList_ofList]
    have hmem : last ∈ segmentsOf slash stem.toList := by rw [hstem]; simp
    exact not_mem_of_mem_segmentsOf hmem
  have hname : Path.componentOf? (last ++ ending.toList) = some (.normal (RawText.ofList last ++ ending)) := by
    rw [← (isName_append hlast hending hlength).componentOf?, RawText.toList_append, RawText.toList_ofList]
  refine ⟨p.split.1.components ++ before.filterMap Path.componentOf?, RawText.ofList last, ?_⟩
  rw [components_eq, Path.stepsOf, h, RawText.toList_append, hsegments, List.filterMap_append,
    List.filterMap_cons_some hname, List.filterMap_nil, List.append_assoc]

theorem fileName_congr {p q : Path} (h : p.components = q.components) : p.fileName = q.fileName := by
  rw [fileName, fileName, h]

/-- A character of a path stands in one of its names, or gives it its form. -/
theorem exists_name_of_mem_text {p : Path} {c : UInt8} (h : c ∈ p.text.toList) (hslash : c ≠ slash)
    (hpoint : c ≠ point) :
    ∃ s, .normal s ∈ p.components ∧ c ∈ s.toList := by
  obtain ⟨piece, hpiece, hmem⟩ := exists_mem_segmentsOf h hslash
  have hfiller : isFiller piece = false := by
    rw [Bool.eq_false_iff]
    intro hfiller
    simp only [isFiller, Bool.or_eq_true, beq_iff_eq] at hfiller
    rcases hfiller with rfl | rfl
    · cases hmem
    · exact hpoint (List.mem_singleton.mp hmem)
  have hparent : (piece == [point, point]) = false := by
    rw [Bool.eq_false_iff]
    intro hparent
    rw [beq_iff_eq] at hparent
    subst hparent
    simp [hpoint] at hmem
  refine ⟨RawText.ofList piece, ?_, by rwa [RawText.toList_ofList]⟩
  rw [components_eq]
  refine List.mem_append_right _ (List.mem_filterMap.mpr ⟨piece, hpiece, ?_⟩)
  rw [componentOf?, hfiller, hparent]
  rfl

/-- **A path spells a string** exactly when all its names do. -/
theorem isSome_string?_text_iff {p : Path} :
    p.text.string?.isSome ↔ ∀ n, .normal n ∈ p.components → n.string?.isSome := by
  constructor
  · intro h n hn
    obtain ⟨s, hs⟩ := Option.isSome_iff_exists.mp h
    have hsegment : n ∈ p.text.segments slash :=
      List.mem_map.mpr ⟨n.toList, (mem_segmentsOf_of_mem_components hn).1, RawText.ofList_toList n⟩
    rw [RawText.string?_eq_some_iff.mp hs, RawText.segments_ofString] at hsegment
    obtain ⟨t, _, rfl⟩ := List.mem_map.mp hsegment
    rw [RawText.string?_ofString]
    rfl
  · refine fun h => RawText.isSome_string?_of_segments fun a ha => ?_
    obtain ⟨piece, hpiece, rfl⟩ := List.mem_map.mp ha
    cases hc : componentOf? piece with
    | none =>
      have hfiller : isFiller piece = true := by
        unfold componentOf? at hc
        split at hc
        · assumption
        · split at hc <;> cases hc
      rw [isFiller, Bool.or_eq_true, beq_iff_eq, beq_iff_eq] at hfiller
      rcases hfiller with rfl | rfl <;> decide
    | some c =>
      rcases componentOf?_eq_some hc with ⟨rfl, _⟩ | rfl
      · decide
      · refine h _ ?_
        rw [components_eq]
        exact List.mem_append_right _ (List.mem_filterMap.mpr ⟨piece, hpiece, hc⟩)

/-- A path is shown as it is when its names spell strings without backslashes. -/
theorem ofString_slashed {p : Path} (h : ∀ n, .normal n ∈ p.components → n.string?.isSome ∧ backslash ∉ n.toList) :
    RawText.ofString p.slashed = p.text := by
  obtain ⟨s, hs⟩ := Option.isSome_iff_exists.mp (isSome_string?_text_iff.mpr fun n hn => (h n hn).1)
  rw [RawText.string?_eq_some_iff] at hs
  obtain rfl : p = ⟨s⟩ := congrArg Path.mk hs
  rw [slashed_of_not_mem]
  intro hback
  obtain ⟨n, hn, hmem⟩ := exists_name_of_mem_text ((RawText.backslash_mem_ofString s).mpr hback) (by decide) (by decide)
  exact (h n hn).2 hmem

/-! ## Below another path -/

/-- The name that a step leads to. -/
def nameOf? : Component → Option RawText
  | .normal name => some name
  | _ => none

/-- Steps that all lead to names are names. -/
theorem exists_map_normal {steps : List Component} (h : ∀ c ∈ steps, (nameOf? c).isSome) :
    ∃ names : List RawText, steps = names.map .normal := by
  induction steps with
  | nil => exact ⟨[], rfl⟩
  | cons c steps ih =>
    obtain ⟨names, hnames⟩ := ih fun d hd => h d (List.mem_cons_of_mem _ hd)
    cases c with
    | normal n => exact ⟨n :: names, by rw [hnames, List.map_cons]⟩
    | _ => exact absurd (h _ List.mem_cons_self) (by simp [nameOf?])

/-- A path lies below another one when it goes on from there through names only. -/
def LiesBelow (root p : Path) : Prop := ∃ names : List RawText, p.components = root.components ++ names.map .normal

/-- Below a path are those that start with its components and whose further ones are names. -/
theorem liesBelow_iff {root p : Path} : LiesBelow root p ↔
    root.components <+: p.components ∧ ∀ c ∈ p.components.drop root.components.length, (nameOf? c).isSome := by
  constructor
  · rintro ⟨names, h⟩
    refine ⟨⟨_, h.symm⟩, ?_⟩
    rw [h, List.drop_left]
    intro c hc
    obtain ⟨n, _, rfl⟩ := List.mem_map.mp hc
    rfl
  · rintro ⟨⟨rest, h⟩, hrest⟩
    rw [← h, List.drop_left] at hrest
    obtain ⟨names, rfl⟩ := exists_map_normal hrest
    exact ⟨names, h.symm⟩

instance (root p : Path) : Decidable (LiesBelow root p) := decidable_of_iff _ liesBelow_iff.symm

end Path

end InteropBindings
