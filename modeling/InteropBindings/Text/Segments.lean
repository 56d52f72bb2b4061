/-!
# Segments of a text

Dotted names, slashed paths and search lists are texts cut at one character.

- `segmentsOf` cuts at every separator and `joinWith` puts the separators back (`joinWith_segmentsOf`);
- a list of pieces that hold no separator is recovered from its join (`segmentsOf_joinWith`).
-/

namespace InteropBindings.Text

variable {α : Type}

/-- The pieces between the separators, one more than there are separators. -/
def segmentsOf [DecidableEq α] (sep : α) : List α → List (List α)
  | [] => [[]]
  | c :: rest =>
    if c = sep then [] :: segmentsOf sep rest
    else match segmentsOf sep rest with
      | piece :: pieces => (c :: piece) :: pieces
      | [] => [[c]]

/-- The pieces with a separator between each two. -/
def joinWith (sep : α) : List (List α) → List α
  | [] => []
  | [piece] => piece
  | piece :: pieces => piece ++ sep :: joinWith sep pieces

/-- The segments of a string. -/
def segments (sep : Char) (s : String) : List String :=
  (segmentsOf sep s.toList).map String.ofList

/-- Strings with a separating character between each two. -/
def joined (sep : Char) (parts : List String) : String :=
  String.ofList (joinWith sep (parts.map String.toList))

/-- Strings with a separating string between each two. -/
def listed (sep : String) : List String → String
  | [] => ""
  | [part] => part
  | part :: parts => part ++ sep ++ listed sep parts

/-- A string with every occurrence of one character replaced. -/
def replaceChar (old new : Char) (s : String) : String :=
  String.ofList (s.toList.map fun c => if c = old then new else c)

/-- A string without a given ending, or nothing when it ends otherwise. -/
def dropEnding? (ending s : String) : Option String :=
  if ending.toList.isSuffixOf s.toList then
    some (String.ofList (s.toList.take (s.toList.length - ending.toList.length)))
  else none

/-- Whether a string begins with another. -/
def beginsWith (start s : String) : Bool := start.toList.isPrefixOf s.toList

/-- Whether a string ends with another. -/
def endsWith (ending s : String) : Bool := ending.toList.isSuffixOf s.toList

/-! ## Cutting and joining -/

theorem segmentsOf_ne_nil [DecidableEq α] (sep : α) (cs : List α) : segmentsOf sep cs ≠ [] := by
  cases cs with
  | nil => simp [segmentsOf]
  | cons c rest =>
    simp only [segmentsOf]
    split
    · simp
    · split <;> simp

theorem joinWith_cons_cons (sep c : α) (piece : List α) (pieces : List (List α)) :
    joinWith sep ((c :: piece) :: pieces) = c :: joinWith sep (piece :: pieces) := by
  cases pieces <;> rfl

/-- Nothing is lost by cutting. -/
theorem joinWith_segmentsOf [DecidableEq α] (sep : α) (cs : List α) : joinWith sep (segmentsOf sep cs) = cs := by
  induction cs with
  | nil => rfl
  | cons c rest ih =>
    simp only [segmentsOf]
    split
    · next h =>
      subst h
      cases hs : segmentsOf c rest with
      | nil => exact absurd hs (segmentsOf_ne_nil c rest)
      | cons piece pieces => rw [hs] at ih; simp [joinWith, ih]
    · cases hs : segmentsOf sep rest with
      | nil => exact absurd hs (segmentsOf_ne_nil sep rest)
      | cons piece pieces => rw [hs] at ih; simp only [joinWith_cons_cons, ih]

theorem segmentsOf_of_not_mem [DecidableEq α] {sep : α} {cs : List α} (h : sep ∉ cs) : segmentsOf sep cs = [cs] := by
  induction cs with
  | nil => rfl
  | cons c rest ih =>
    simp only [List.mem_cons, not_or] at h
    simp [segmentsOf, Ne.symm h.1, ih h.2]

/-- The first piece ends at the first separator. -/
theorem segmentsOf_append [DecidableEq α] {sep : α} {piece : List α} (rest : List α) (h : sep ∉ piece) :
    segmentsOf sep (piece ++ sep :: rest) = piece :: segmentsOf sep rest := by
  induction piece with
  | nil => simp [segmentsOf]
  | cons c piece ih =>
    simp only [List.mem_cons, not_or] at h
    simp [segmentsOf, Ne.symm h.1, ih h.2]

/-- Pieces without the separator are recovered from their join. -/
theorem segmentsOf_joinWith [DecidableEq α] {sep : α} {pieces : List (List α)} (hne : pieces ≠ [])
    (h : ∀ piece ∈ pieces, sep ∉ piece) : segmentsOf sep (joinWith sep pieces) = pieces := by
  induction pieces with
  | nil => exact absurd rfl hne
  | cons piece pieces ih =>
    cases pieces with
    | nil => exact segmentsOf_of_not_mem (h piece (by simp))
    | cons next more =>
      simp only [joinWith]
      rw [segmentsOf_append _ (h piece (by simp)), ih (by simp) fun p hp => h p (List.mem_cons_of_mem _ hp)]

end InteropBindings.Text
