import InteropBindings.Text.CaseTable

/-!
# Lowercase

The full lowercase of a text: each character is mapped on its own, except that a capital sigma at the end of a word
becomes the final small sigma and the dotted capital I becomes two characters.

- `lowercase` maps a text and `lower` a string;
- the lowercase of an ASCII text is ASCII, letter by letter (`lowercaseAfter_ascii`).
-/

namespace InteropBindings.Text

/-- A search for the next letter passes over this character. -/
def isCaseIgnorable (c : Char) : Bool := inRanges caseIgnorable c.toNat

/-- A letter of one of the two cases. -/
def isCased (c : Char) : Bool := c.isAlpha || inRanges casedLetters c.toNat

/-- Whether the nearest character that is not passed over has case. -/
def meetsCased (cs : List Char) : Bool :=
  match cs.dropWhile isCaseIgnorable with
  | c :: _ => isCased c
  | [] => false

/-- The lowercase of a single character that is neither the dotted capital I nor the capital sigma. -/
def lowerChar (c : Char) : Char :=
  if c.toNat < 0x80 then c.toLower
  else match caseRuns.find? (·.holds c.toNat) with
    | some run => Char.ofNat ((c.toNat : Int) + run.shift).toNat
    | none => c

/-- The lowercase of a character between two texts, the one before it reversed. -/
def lowerBetween (before : List Char) (c : Char) (after : List Char) : List Char :=
  if c.toNat = 0x130 then ['i', Char.ofNat 0x307]
  else if c.toNat = 0x3A3 then
    [Char.ofNat (if meetsCased before && !meetsCased after then 0x3C2 else 0x3C3)]
  else [lowerChar c]

/-- The lowercase of a text that follows another one, which is given reversed. -/
def lowercaseAfter (before : List Char) : List Char → List Char
  | [] => []
  | c :: rest => lowerBetween before c rest ++ lowercaseAfter (c :: before) rest

/-- The lowercase of a text. -/
def lowercase (cs : List Char) : List Char := lowercaseAfter [] cs

/-- The lowercase of a string. -/
def lower (s : String) : String := String.ofList (lowercase s.toList)

/-! ## ASCII -/

theorem lowerBetween_ascii {c : Char} (before after : List Char) (h : c.toNat < 0x80) :
    lowerBetween before c after = [c.toLower] := by
  have h1 : ¬ c.toNat = 0x130 := by omega
  have h2 : ¬ c.toNat = 0x3A3 := by omega
  simp [lowerBetween, lowerChar, h1, h2, h]

theorem lowercaseAfter_ascii {cs : List Char} (before : List Char) (h : ∀ c ∈ cs, c.toNat < 0x80) :
    lowercaseAfter before cs = cs.map Char.toLower := by
  induction cs generalizing before with
  | nil => rfl
  | cons c rest ih =>
    simp only [lowercaseAfter, List.map_cons]
    rw [lowerBetween_ascii _ _ (h c (by simp)), ih _ fun d hd => h d (List.mem_cons_of_mem _ hd)]
    rfl

end InteropBindings.Text
