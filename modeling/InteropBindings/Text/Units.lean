/-!
# Code units of string literals

An escape in a string literal may name half of a surrogate pair. A literal is therefore read into code units, each a
character or a lone half, and turned into text at the end.

- a leading half followed by a trailing half is the character of the pair;
- every other half has no text of its own and is written as three replacement characters.
-/

namespace InteropBindings.Text

/-- What one position of a literal denotes. -/
inductive CodeUnit
  /-- A character. -/
  | char (c : Char)
  /-- Half of a surrogate pair, by its number. -/
  | half (n : Nat)
deriving DecidableEq

/-- The unit with a given number, which is at most the last code point. -/
def CodeUnit.ofNat (n : Nat) : CodeUnit :=
  if 0xD800 ≤ n ∧ n < 0xE000 then .half n else .char (Char.ofNat n)

/-- The replacement character. -/
def replacement : Char := Char.ofNat 0xFFFD

/-- The text of a sequence of units. -/
def textOfUnits : List CodeUnit → List Char
  | [] => []
  | .char c :: rest => c :: textOfUnits rest
  | .half hi :: .half lo :: rest =>
    if hi < 0xDC00 ∧ 0xDC00 ≤ lo then
      Char.ofNat (0x10000 + (hi - 0xD800) * 0x400 + (lo - 0xDC00)) :: textOfUnits rest
    else replacement :: replacement :: replacement :: textOfUnits (.half lo :: rest)
  | .half _ :: rest => replacement :: replacement :: replacement :: textOfUnits rest

end InteropBindings.Text
