import InteropBindings.Text.Identifier
import InteropBindings.Text.Segments

/-!
# String literals in single quotes

What a string literal of Dart stands for (`readLiteral`): a sequence of numbers, one or two for each character, up to
the quote that closes the literal. A backslash starts an escape. A dollar sign starts an interpolation, so a literal
that holds one is no fixed text, and a line break ends the literal before it is closed.

A text that is written between quotes as it is stands for itself exactly when it holds none of these characters
(`readLiteral_eq_some_iff`). The reason is that an escape takes more characters than it stands for
(`length_le_of_readLiteral`).
-/

namespace InteropBindings.Text

/-! ## Reading -/

/-- The numbers that a code point is written with, two if it does not fit into one. -/
def unitsOf (n : Nat) : List Nat :=
  if n < 0x10000 then [n] else [0xD800 + (n - 0x10000) / 0x400, 0xDC00 + (n - 0x10000) % 0x400]

/-- The numbers that a text is written with. -/
def units16 (cs : List Char) : List Nat := cs.flatMap fun c => unitsOf c.toNat

/-- The character that a backslash in front of another one stands for. -/
def escaped : Char → Char
  | 'n' => '\n'
  | 'r' => '\r'
  | 't' => '\t'
  | 'b' => Char.ofNat 8
  | 'v' => Char.ofNat 11
  | 'f' => Char.ofNat 12
  | c => c

/-- Where a reader stands in a literal. -/
inductive LiteralMode
  | text
  /-- Behind a backslash. -/
  | escape
  /-- Before the last hexadecimal digits of an escape, behind others that make up a number. -/
  | digits (left value : Nat)
  /-- Behind a backslash and a `u`. -/
  | unicode
  /-- Between braces, behind some hexadecimal digits that make up a number. -/
  | braced (count value : Nat)

/-- What is read, with some numbers in front. -/
def prepend (front : List Nat) (read : Option (List Nat × List Char)) : Option (List Nat × List Char) :=
  read.map fun r => (front ++ r.1, r.2)

/-- The value of the rest of a literal and what stands behind the quote that closes it; nothing when the literal is not
closed, an escape is malformed, or there is an interpolation. -/
def readLiteral : LiteralMode → List Char → Option (List Nat × List Char)
  | _, [] => none
  | .text, c :: rest =>
    if c = '\'' then some ([], rest)
    else if c = '\\' then readLiteral .escape rest
    else if c = '$' ∨ c = '\n' ∨ c = '\r' then none
    else prepend (unitsOf c.toNat) (readLiteral .text rest)
  | .escape, c :: rest =>
    if c = '\n' ∨ c = '\r' then none
    else if c = 'x' then readLiteral (.digits 2 0) rest
    else if c = 'u' then readLiteral .unicode rest
    else prepend (unitsOf (escaped c).toNat) (readLiteral .text rest)
  | .digits left value, c :: rest =>
    match digitValue? 16 c with
    | none => none
    | some v =>
      if left ≤ 1 then prepend [value * 16 + v] (readLiteral .text rest)
      else readLiteral (.digits (left - 1) (value * 16 + v)) rest
  | .unicode, c :: rest =>
    if c = '{' then readLiteral (.braced 0 0) rest
    else match digitValue? 16 c with
      | none => none
      | some v => readLiteral (.digits 3 v) rest
  | .braced count value, c :: rest =>
    if c = '}' then
      if count = 0 ∨ 0x10FFFF < value then none else prepend (unitsOf value) (readLiteral .text rest)
    else if 6 ≤ count then none
    else match digitValue? 16 c with
      | none => none
      | some v => readLiteral (.braced (count + 1) (value * 16 + v)) rest

/-- What is read with some numbers in front. -/
theorem prepend_eq_some_iff {front value : List Nat} {read : Option (List Nat × List Char)} {rest : List Char} :
    prepend front read = some (value, rest) ↔ ∃ v, read = some (v, rest) ∧ front ++ v = value := by
  unfold prepend
  rw [Option.map_eq_some_iff]
  constructor
  · rintro ⟨⟨v, _⟩, hread, h⟩
    cases h
    exact ⟨v, hread, rfl⟩
  · rintro ⟨v, hread, rfl⟩
    exact ⟨(v, rest), hread, rfl⟩

/-! ## Lengths -/

/-- Whether a character does not stand for itself in a literal. -/
def mustEscape (c : Char) : Bool := c == '\'' || c == '\\' || c == '$' || c == '\n' || c == '\r'

/-- How much more a reader may find in the rest of a literal than there are numbers in its text. Between braces it is
one, since the characters in front of them have been read. -/
def LiteralMode.surplus : LiteralMode → Nat
  | .braced _ _ => 1
  | _ => 0

theorem one_le_length_unitsOf (n : Nat) : 1 ≤ (unitsOf n).length := by
  unfold unitsOf
  split <;> simp

theorem length_unitsOf_le (n : Nat) : (unitsOf n).length ≤ 2 := by
  unfold unitsOf
  split <;> simp

theorem length_unitsOf_escaped_le (c : Char) : (unitsOf (escaped c).toNat).length ≤ (unitsOf c.toNat).length := by
  unfold escaped
  split <;> simp [unitsOf]

@[simp] theorem units16_nil : units16 [] = [] := rfl

@[simp] theorem units16_cons (c : Char) (cs : List Char) : units16 (c :: cs) = unitsOf c.toNat ++ units16 cs := rfl

@[simp] theorem units16_append (cs ds : List Char) :
    units16 (cs ++ ds) = units16 cs ++ units16 ds := List.flatMap_append ..

/-- **One character** closes the literal, is passed over, or ends a part of the text that stands for some numbers; these
are not more than the part leaves room for. -/
theorem readLiteral_step {mode : LiteralMode} {c : Char} {cs rest : List Char} {value : List Nat}
    (h : readLiteral mode (c :: cs) = some (value, rest)) :
    value = [] ∧ rest = cs ∨
    (∃ next : LiteralMode, next.surplus ≤ mode.surplus + 1 ∧ readLiteral next cs = some (value, rest)) ∨
    ∃ front : List Nat, front.length ≤ (unitsOf c.toNat).length + mode.surplus ∧
      prepend front (readLiteral .text cs) = some (value, rest) := by
  have hc := one_le_length_unitsOf c.toNat
  cases mode with
  | text =>
    simp only [readLiteral] at h
    split at h
    · cases h
      exact .inl ⟨rfl, rfl⟩
    split at h
    · exact .inr (.inl ⟨_, Nat.zero_le _, h⟩)
    split at h
    · cases h
    · exact .inr (.inr ⟨_, Nat.le_refl _, h⟩)
  | escape =>
    simp only [readLiteral] at h
    split at h
    · cases h
    split at h
    · exact .inr (.inl ⟨_, Nat.zero_le _, h⟩)
    split at h
    · exact .inr (.inl ⟨_, Nat.zero_le _, h⟩)
    · exact .inr (.inr ⟨_, length_unitsOf_escaped_le c, h⟩)
  | digits left n =>
    simp only [readLiteral] at h
    split at h
    · cases h
    split at h
    · exact .inr (.inr ⟨[_], hc, h⟩)
    · exact .inr (.inl ⟨_, Nat.zero_le _, h⟩)
  | unicode =>
    simp only [readLiteral] at h
    split at h
    · exact .inr (.inl ⟨.braced 0 0, Nat.le_refl 1, h⟩)
    split at h
    · cases h
    · exact .inr (.inl ⟨_, Nat.zero_le _, h⟩)
  | braced count n =>
    simp only [readLiteral] at h
    split at h
    · split at h
      · cases h
      · exact .inr (.inr ⟨_, Nat.le_trans (length_unitsOf_le n) (Nat.add_le_add_right hc 1), h⟩)
    split at h
    · cases h
    split at h
    · cases h
    · exact .inr (.inl ⟨.braced _ _, Nat.le_succ 1, h⟩)

/-- **What is read is not longer than its text.** -/
theorem length_le_of_readLiteral {mode : LiteralMode} {cs rest : List Char} {value : List Nat}
    (h : readLiteral mode cs = some (value, rest)) :
    value.length + (units16 rest).length + 1 ≤ (units16 cs).length + mode.surplus := by
  induction cs generalizing mode value with
  | nil => cases mode <;> cases h
  | cons c cs ih =>
    have hc := one_le_length_unitsOf c.toNat
    rw [units16_cons, List.length_append]
    obtain ⟨rfl, rfl⟩ | ⟨next, hnext, hread⟩ | ⟨front, hfront, hread⟩ := readLiteral_step h
    · rw [List.length_nil]
      omega
    · have hlater := ih hread
      omega
    · obtain ⟨v, htext, rfl⟩ := prepend_eq_some_iff.mp hread
      have hlater := ih htext
      simp only [LiteralMode.surplus] at hlater
      rw [List.length_append]
      omega

/-! ## Texts that stand for themselves -/

/-- A text whose characters stand for themselves in a literal. -/
def IsVerbatim (s : String) : Prop := ∀ c ∈ s.toList, mustEscape c = false

instance : DecidablePred IsVerbatim := fun s =>
  decidable_of_iff (s.toList.any mustEscape = false) (by simp only [IsVerbatim, List.any_eq_false, Bool.not_eq_true])

/-- A character that stands for itself is read as itself. -/
theorem readLiteral_cons {c : Char} (h : mustEscape c = false) (cs : List Char) :
    readLiteral .text (c :: cs) = prepend (unitsOf c.toNat) (readLiteral .text cs) := by
  simp only [mustEscape, Bool.or_eq_false_iff, beq_eq_false_iff_ne] at h
  obtain ⟨⟨⟨⟨hquote, hback⟩, hdollar⟩, hfeed⟩, hreturn⟩ := h
  simp only [readLiteral, hquote, hback, hdollar, hfeed, hreturn, if_false, or_self]

/-- **A text between quotes stands for itself** exactly when each of its characters does. -/
theorem readLiteral_eq_some_iff {cs rest : List Char} :
    readLiteral .text (cs ++ '\'' :: rest) = some (units16 cs, rest) ↔ ∀ c ∈ cs, mustEscape c = false := by
  induction cs with
  | nil => simp [readLiteral]
  | cons c cs ih =>
    rw [List.forall_mem_cons, List.cons_append]
    cases hc : mustEscape c with
    | false =>
      rw [readLiteral_cons hc, prepend_eq_some_iff, units16_cons]
      constructor
      · rintro ⟨v, hread, hv⟩
        obtain rfl := List.append_cancel_left hv
        exact ⟨rfl, ih.mp hread⟩
      · rintro ⟨_, hcs⟩
        exact ⟨units16 cs, ih.mpr hcs, rfl⟩
    | true =>
      refine iff_of_false (fun hread => ?_) (fun h => Bool.noConfusion h.1)
      simp only [mustEscape, Bool.or_eq_true, beq_iff_eq] at hc
      obtain (((rfl | rfl) | rfl) | rfl) | rfl := hc
      · -- The quote closes the literal too early.
        simp only [readLiteral, if_true, Option.some.injEq, Prod.mk.injEq] at hread
        have hlength := congrArg List.length hread.2
        simp at hlength
        omega
      · -- The escape stands for fewer characters than there are.
        have hescape : readLiteral .escape (cs ++ '\'' :: rest) = some (units16 ('\\' :: cs), rest) := hread
        have hlength := length_le_of_readLiteral hescape
        have hquote : (unitsOf '\''.toNat).length = 1 := rfl
        have hback : (unitsOf '\\'.toNat).length = 1 := rfl
        simp only [units16_append, units16_cons, List.length_append, hquote, hback, LiteralMode.surplus] at hlength
        omega
      all_goals cases hread

/-- The literal in a text behind an opening, which is the text up to the quote. -/
def literalBehind (opening text : String) : Option (List Nat × String) :=
  if opening.toList.isPrefixOf text.toList then
    (readLiteral .text (text.toList.drop opening.toList.length)).map fun r => (r.1, String.ofList r.2)
  else none

/-- **A text written between quotes** is read back exactly when it stands for itself. -/
theorem literalBehind_eq_some_iff {opening s rest : String} :
    literalBehind opening (opening ++ s ++ "'" ++ rest) = some (units16 s.toList, rest) ↔ IsVerbatim s := by
  have htext : (opening ++ s ++ "'" ++ rest).toList = opening.toList ++ (s.toList ++ '\'' :: rest.toList) := by simp
  have hprefix : opening.toList.isPrefixOf (opening.toList ++ (s.toList ++ '\'' :: rest.toList)) = true :=
    List.isPrefixOf_iff_prefix.mpr (List.prefix_append ..)
  have hread : readLiteral .text (s.toList ++ '\'' :: rest.toList) =
    some (units16 s.toList, rest.toList) ↔ IsVerbatim s :=
    readLiteral_eq_some_iff
  rw [literalBehind, htext, if_pos hprefix, List.drop_left, ← hread, Option.map_eq_some_iff]
  constructor
  · rintro ⟨⟨value, after⟩, hafter, h⟩
    obtain ⟨rfl, rfl⟩ := Prod.mk.inj h
    rw [hafter, String.toList_ofList]
  · intro hafter
    exact ⟨_, hafter, by rw [String.ofList_toList]⟩

end InteropBindings.Text
