import InteropBindings.Text.Segments
import InteropBindings.Text.Units

/-!
# Raw texts

A name or a path in a file tree is a text as the system has it: bytes, which need not spell characters. Every string is
such a text (`RawText.ofString`), and what spells one can be read as that string (`RawText.string?`). To be shown, any
raw text is turned into a string in which the replacement character stands for whatever spells none (`RawText.shown`).
-/

namespace InteropBindings

open Text

/-- The byte of a slash. -/
abbrev slash : UInt8 := 0x2f

/-- The byte of a backslash. -/
abbrev backslash : UInt8 := 0x5c

/-- The byte of a point. -/
abbrev point : UInt8 := 0x2e

/-- A text as bytes. -/
structure RawText where
  ofList ::
  toList : List UInt8
deriving DecidableEq, Repr

namespace RawText

/-- The bytes of a string. -/
@[coe]
def ofString (s : String) : RawText := ofList s.toByteArray.data.toList

instance : Coe String RawText := ⟨ofString⟩

instance : Append RawText := ⟨fun a b => ofList (a.toList ++ b.toList)⟩

instance : Ord RawText := ⟨fun a b => compare a.toList b.toList⟩

/-- Whether there are no bytes. -/
def isEmpty (a : RawText) : Bool := a.toList.isEmpty

/-- The number of bytes. -/
def size (a : RawText) : Nat := a.toList.length

/-- The pieces between the separators. -/
def segments (sep : UInt8) (a : RawText) : List RawText := (segmentsOf sep a.toList).map ofList

/-- Raw texts with a separator between each two. -/
def joined (sep : UInt8) (parts : List RawText) : RawText := ofList (joinWith sep (parts.map toList))

/-- Whether a raw text begins with another. -/
def beginsWith (a start : RawText) : Bool := start.toList.isPrefixOf a.toList

/-- Whether a raw text ends with another. -/
def endsWith (a ending : RawText) : Bool := ending.toList.isSuffixOf a.toList

/-! ## Bytes in a row -/

theorem toList_inj {a b : RawText} : a.toList = b.toList ↔ a = b := ⟨congrArg ofList, congrArg toList⟩

@[simp] theorem toList_ofList (bs : List UInt8) : (ofList bs).toList = bs := rfl

@[simp] theorem toList_append (a b : RawText) : (a ++ b).toList = a.toList ++ b.toList := rfl

@[simp] theorem ofList_toList (a : RawText) : ofList a.toList = a := rfl

@[simp] theorem toList_empty : (ofString "").toList = [] := rfl

@[simp] theorem ofList_nil : ofList [] = ofString "" := rfl

@[simp] theorem toList_slash : (ofString "/").toList = [slash] := rfl

@[simp] theorem append_empty (a : RawText) : a ++ ofString "" = a := congrArg ofList (List.append_nil a.toList)

@[simp] theorem empty_append (a : RawText) : ofString "" ++ a = a := rfl

@[simp] theorem joined_singleton (sep : UInt8) (a : RawText) : joined sep [a] = a := rfl

theorem append_assoc (a b c : RawText) : a ++ b ++ c = a ++ (b ++ c) :=
  congrArg ofList (List.append_assoc a.toList b.toList c.toList)

@[simp] theorem toList_eq_nil_iff {a : RawText} : a.toList = [] ↔ a = ofString "" := by
  rw [← toList_inj, toList_empty]

@[simp] theorem ofList_eq_empty_iff {bs : List UInt8} : ofList bs = ofString "" ↔ bs = [] := by
  rw [← toList_eq_nil_iff, toList_ofList]

@[simp] theorem isEmpty_iff {a : RawText} : a.isEmpty = true ↔ a = ofString "" := by
  rw [isEmpty, List.isEmpty_iff, toList_eq_nil_iff]

@[simp] theorem isEmpty_eq_false_iff {a : RawText} : a.isEmpty = false ↔ a ≠ ofString "" := by
  rw [Bool.eq_false_iff, ne_eq, isEmpty_iff]

@[simp] theorem append_eq_empty_iff {a b : RawText} : a ++ b = ofString "" ↔ a = ofString "" ∧ b = ofString "" := by
  rw [← toList_eq_nil_iff, toList_append, List.append_eq_nil_iff, toList_eq_nil_iff, toList_eq_nil_iff]

theorem endsWith_iff {a ending : RawText} : a.endsWith ending = true ↔ ∃ front, a = front ++ ending := by
  rw [endsWith, List.isSuffixOf_iff_suffix]
  exact ⟨fun ⟨front, h⟩ => ⟨ofList front, toList_inj.mp h.symm⟩, fun ⟨front, h⟩ =>
    ⟨front.toList, by rw [h, toList_append]⟩⟩

theorem ofString_append (s t : String) : ofString (s ++ t) = ofString s ++ ofString t := by
  rw [← toList_inj, toList_append]
  simp [ofString, String.toByteArray_append, ByteArray.data_append]

theorem toList_ofString (s : String) : (ofString s).toList = s.toList.flatMap String.utf8EncodeChar := by
  rw [← String.ofList_toList (s := s), ofString, String.toByteArray_ofList, toList_ofList, String.toList_ofList,
    List.utf8Encode, List.toList_data_toByteArray]

theorem size_append (a b : RawText) : (a ++ b).size = a.size + b.size := List.length_append

/-! ## Reading characters -/

/-- A character that has been begun: its bits so far, how many bytes are to come after the next one, and between which
bytes the next one is. -/
structure Begun where
  bits : Nat
  missing : Nat
  low : Nat
  high : Nat
  low_ge : 0x80 ≤ low
  high_le : high ≤ 0xbf
deriving DecidableEq

/-- The characters that a byte spells where none has been begun, and the one that it begins. -/
def start (b : Nat) : List Char × Option Begun :=
  if b < 0x80 then ([Char.ofNat b], none)
  else if b < 0xc2 then ([replacement], none)
  else if b < 0xe0 then ([], some ⟨b - 0xc0, 0, 0x80, 0xbf, by decide, by decide⟩)
  else if b < 0xf0 then
    ([], some ⟨b - 0xe0, 1, if b = 0xe0 then 0xa0 else 0x80, if b = 0xed then 0x9f else 0xbf, by split <;> decide,
      by split <;> decide⟩)
  else if b < 0xf5 then
    ([], some ⟨b - 0xf0, 2, if b = 0xf0 then 0x90 else 0x80, if b = 0xf4 then 0x8f else 0xbf, by split <;> decide,
      by split <;> decide⟩)
  else ([replacement], none)

/-- The characters that are there without a further byte. -/
def finish : Option Begun → List Char
  | none => []
  | some _ => [replacement]

/-- The characters that a further byte spells, and the one that is begun then. -/
def step : Option Begun → Nat → List Char × Option Begun
  | none, b => start b
  | some c, b =>
    if c.low ≤ b ∧ b ≤ c.high then
      let bits := 64 * c.bits + (b - 0x80)
      match c.missing with
      | 0 => ([Char.ofNat bits], none)
      | missing + 1 => ([], some ⟨bits, missing, 0x80, 0xbf, by decide, by decide⟩)
    else (replacement :: (start b).1, (start b).2)

/-- The characters that bytes spell. -/
def decode : Option Begun → List UInt8 → List Char
  | c, [] => finish c
  | c, b :: rest => (step c b.toNat).1 ++ decode (step c b.toNat).2 rest

/-- A raw text with the replacement character for what spells none. -/
def shown (a : RawText) : String := String.ofList (decode none a.toList)

/-- The string that a raw text spells, if it spells one. -/
def string? (a : RawText) : Option String := if ofString a.shown = a then some a.shown else none

end RawText

end InteropBindings
