import InteropBindings.Proofs.Text.Segments
import InteropBindings.Text.RawText

/-!
# Reading raw texts

A string that is written as bytes is read back, whatever bytes stand around it (`RawText.shown_append_ofString`,
`RawText.shown_ofString_append`), so the strings among the raw texts are those that are read without a loss
(`RawText.string?_eq_some_iff`).
-/

namespace InteropBindings.RawText

open Text

/-! ## One character -/

theorem start_ascii {b : Nat} (h : b < 0x80) : start b = ([Char.ofNat b], none) := by
  rw [start, if_pos h]

theorem step_more {c : Begun} {b missing : Nat} (h : c.low ≤ b ∧ b ≤ c.high) (hmissing : c.missing = missing + 1) :
    step (some c) b = ([], some ⟨64 * c.bits + (b - 0x80), missing, 0x80, 0xbf, by decide, by decide⟩) := by
  rw [step, if_pos h, hmissing]

theorem step_last {c : Begun} {b : Nat} (h : c.low ≤ b ∧ b ≤ c.high) (hmissing : c.missing = 0) :
    step (some c) b = ([Char.ofNat (64 * c.bits + (b - 0x80))], none) := by
  rw [step, if_pos h, hmissing]

theorem step_lost {c : Begun} {b : Nat} (h : ¬ (c.low ≤ b ∧ b ≤ c.high)) :
    step (some c) b = (replacement :: (start b).1, (start b).2) := by
  rw [step, if_neg h]

/-- A byte that continues no character starts anew, and what has been begun is lost. -/
theorem step_of_not_continues (begun : Option Begun) {b : Nat} (h : b < 0x80 ∨ 0xbf < b) :
    step begun b = (finish begun ++ (start b).1, (start b).2) := by
  cases begun with
  | none => rfl
  | some c =>
    have hc := c.low_ge
    have hc' := c.high_le
    exact step_lost (by omega)

theorem decode_ofNat_cons (begun : Option Begun) {b : Nat} (h : b < 256) (rest : List UInt8) :
    decode begun (UInt8.ofNat b :: rest) = (step begun b).1 ++ decode (step begun b).2 rest := by
  rw [decode, UInt8.toNat_ofNat_of_lt' h]

theorem decode_ascii (begun : Option Begun) {b : Nat} (h : b < 0x80) (rest : List UInt8) :
    decode begun (UInt8.ofNat b :: rest) = finish begun ++ Char.ofNat b :: decode none rest := by
  rw [decode_ofNat_cons begun (by omega), step_of_not_continues begun (.inl h), start_ascii h]
  simp

theorem decode_start (begun : Option Begun) {b : Nat} {c : Begun} (h : 0xbf < b ∧ b < 256)
    (hstart : start b = ([], some c)) (rest : List UInt8) :
    decode begun (UInt8.ofNat b :: rest) = finish begun ++ decode (some c) rest := by
  rw [decode_ofNat_cons begun h.2, step_of_not_continues begun (.inr h.1), hstart, List.append_nil]

theorem decode_more {c : Begun} {b missing : Nat} (h : c.low ≤ b ∧ b ≤ c.high) (hmissing : c.missing = missing + 1)
    (rest : List UInt8) :
    decode (some c) (UInt8.ofNat b :: rest) =
      decode (some ⟨64 * c.bits + (b - 0x80), missing, 0x80, 0xbf, by decide, by decide⟩) rest := by
  have hc := c.high_le
  rw [decode_ofNat_cons _ (by omega), step_more h hmissing, List.nil_append]

theorem decode_last {c : Begun} {b : Nat} (h : c.low ≤ b ∧ b ≤ c.high) (hmissing : c.missing = 0) (rest : List UInt8) :
    decode (some c) (UInt8.ofNat b :: rest) = Char.ofNat (64 * c.bits + (b - 0x80)) :: decode none rest := by
  have hc := c.high_le
  rw [decode_ofNat_cons _ (by omega), step_last h hmissing, List.singleton_append]

/-! The first bytes of the characters with more than one. -/

theorem start_two {n : Nat} (h : 0x7f < n ∧ n ≤ 0x7ff) :
    start (n / 64 % 32 + 0xc0) = ([], some ⟨n / 64, 0, 0x80, 0xbf, by decide, by decide⟩) := by
  have hbits : n / 64 % 32 + 0xc0 - 0xc0 = n / 64 := by omega
  rw [start, if_neg (by omega), if_neg (by omega), if_pos (by omega)]
  simp only [hbits]

theorem start_three {n : Nat} (h : 0x7ff < n ∧ n ≤ 0xffff) :
    start (n / 4096 % 16 + 0xe0) = ([], some ⟨n / 4096, 1, if n / 4096 = 0 then 0xa0 else 0x80,
      if n / 4096 = 0xd then 0x9f else 0xbf, by split <;> decide, by split <;> decide⟩) := by
  have hbits : n / 4096 % 16 + 0xe0 - 0xe0 = n / 4096 := by omega
  have hlow : (n / 4096 % 16 + 0xe0 = 0xe0) = (n / 4096 = 0) := propext (by omega)
  have hhigh : (n / 4096 % 16 + 0xe0 = 0xed) = (n / 4096 = 0xd) := propext (by omega)
  rw [start, if_neg (by omega), if_neg (by omega), if_neg (by omega), if_pos (by omega)]
  simp only [hbits, hlow, hhigh]

theorem start_four {n : Nat} (h : 0xffff < n ∧ n < 0x110000) :
    start (n / 262144 % 8 + 0xf0) = ([], some ⟨n / 262144, 2, if n / 262144 = 0 then 0x90 else 0x80,
      if n / 262144 = 4 then 0x8f else 0xbf, by split <;> decide, by split <;> decide⟩) := by
  have hbits : n / 262144 % 8 + 0xf0 - 0xf0 = n / 262144 := by omega
  have hlow : (n / 262144 % 8 + 0xf0 = 0xf0) = (n / 262144 = 0) := propext (by omega)
  have hhigh : (n / 262144 % 8 + 0xf0 = 0xf4) = (n / 262144 = 4) := propext (by omega)
  rw [start, if_neg (by omega), if_neg (by omega), if_neg (by omega), if_neg (by omega), if_pos (by omega)]
  simp only [hbits, hlow, hhigh]

/-- A character is no half of a pair. -/
theorem toNat_lt_or (c : Char) : c.toNat < 0xd800 ∨ 0xdfff < c.toNat ∧ c.toNat < 0x110000 := c.valid

theorem utf8EncodeChar_eq (c : Char) : String.utf8EncodeChar c =
    if c.toNat ≤ 0x7f then [UInt8.ofNat c.toNat]
    else if c.toNat ≤ 0x7ff then [UInt8.ofNat (c.toNat / 64 % 32 + 0xc0), UInt8.ofNat (c.toNat % 64 + 0x80)]
    else if c.toNat ≤ 0xffff then
      [UInt8.ofNat (c.toNat / 4096 % 16 + 0xe0), UInt8.ofNat (c.toNat / 64 % 64 + 0x80),
        UInt8.ofNat (c.toNat % 64 + 0x80)]
    else
      [UInt8.ofNat (c.toNat / 262144 % 8 + 0xf0), UInt8.ofNat (c.toNat / 4096 % 64 + 0x80),
        UInt8.ofNat (c.toNat / 64 % 64 + 0x80), UInt8.ofNat (c.toNat % 64 + 0x80)] := rfl

/-- **A character** is read from its bytes, whatever has been begun before. -/
theorem decode_encode (begun : Option Begun) (c : Char) (rest : List UInt8) :
    decode begun (String.utf8EncodeChar c ++ rest) = finish begun ++ c :: decode none rest := by
  have hvalid := toNat_lt_or c
  have hc : Char.ofNat c.toNat = c := Char.ofNat_toNat c
  rw [utf8EncodeChar_eq]
  generalize c.toNat = n at hvalid hc
  subst hc
  split
  · exact decode_ascii begun (by omega) rest
  split
  · have hall : 64 * (n / 64) + (n % 64 + 0x80 - 0x80) = n := by omega
    rw [List.cons_append, decode_start begun (by omega) (start_two (by omega)), List.cons_append,
      decode_last (by dsimp only; omega) rfl, hall, List.nil_append]
  split
  · have hall : 64 * (64 * (n / 4096) + (n / 64 % 64 + 0x80 - 0x80)) + (n % 64 + 0x80 - 0x80) = n := by omega
    -- the bounds of the second byte keep out numbers with fewer bytes and halves of pairs
    have hsecond : (if n / 4096 = 0 then 0xa0 else 0x80) ≤ n / 64 % 64 + 0x80 ∧
        n / 64 % 64 + 0x80 ≤ if n / 4096 = 0xd then 0x9f else 0xbf := by
      constructor <;> split <;> omega
    rw [List.cons_append, decode_start begun (by omega) (start_three (by omega)), List.cons_append,
      decode_more hsecond rfl, List.cons_append, decode_last (by dsimp only; omega) rfl, hall, List.nil_append]
  · have hall : 64 * (64 * (64 * (n / 262144) + (n / 4096 % 64 + 0x80 - 0x80)) + (n / 64 % 64 + 0x80 - 0x80)) +
        (n % 64 + 0x80 - 0x80) = n := by omega
    have hsecond : (if n / 262144 = 0 then 0x90 else 0x80) ≤ n / 4096 % 64 + 0x80 ∧
        n / 4096 % 64 + 0x80 ≤ if n / 262144 = 4 then 0x8f else 0xbf := by
      constructor <;> split <;> omega
    rw [List.cons_append, decode_start begun (by omega) (start_four (by omega)), List.cons_append,
      decode_more hsecond rfl, List.cons_append, decode_more (by dsimp only; omega) rfl, List.cons_append,
      decode_last (by dsimp only; omega) rfl, hall, List.nil_append]

/-! ## Strings among raw texts -/

theorem decode_encodeAll (begun : Option Begun) (c : Char) (cs : List Char) (rest : List UInt8) :
    decode begun ((c :: cs).flatMap String.utf8EncodeChar ++ rest) = finish begun ++ (c :: cs) ++ decode none rest := by
  induction cs generalizing begun c with
  | nil => simp [decode_encode]
  | cons d cs ih =>
    rw [List.flatMap_cons, List.append_assoc, decode_encode, ih none d, finish, List.nil_append, List.append_assoc]
    rfl

/-- Characters in the middle are read from their bytes, and bytes in front of them are read on their own. -/
theorem decode_append_encodeAll (begun : Option Begun) (bs : List UInt8) (c : Char) (cs : List Char)
    (rest : List UInt8) : decode begun (bs ++ ((c :: cs).flatMap String.utf8EncodeChar ++ rest)) =
      decode begun bs ++ (c :: cs) ++ decode none rest := by
  induction bs generalizing begun with
  | nil => rw [List.nil_append, decode_encodeAll, decode]
  | cons b bs ih => simp only [List.cons_append, decode, ih, List.append_assoc]

/-- **A string in the middle of a raw text** is shown as it is, and what stands around it is shown on its own. -/
theorem shown_append_ofString_append (a : RawText) {s : String} (hs : s ≠ "") (b : RawText) :
    (a ++ s ++ b).shown = a.shown ++ s ++ b.shown := by
  obtain ⟨c, cs, hcs⟩ : ∃ c cs, s.toList = c :: cs :=
    List.exists_cons_of_ne_nil fun hnil => hs (String.toList_inj.mp hnil)
  rw [← String.toList_inj, shown, String.toList_ofList, toList_append, toList_append, toList_ofString, hcs,
    List.append_assoc, decode_append_encodeAll]
  simp [shown, hcs]

@[simp] theorem shown_empty : (ofString "").shown = "" := rfl

theorem shown_append_ofString (a : RawText) (s : String) : (a ++ s).shown = a.shown ++ s := by
  by_cases hs : s = ""
  · rw [hs, append_empty, String.append_empty]
  · have h := shown_append_ofString_append a hs (ofString "")
    rwa [append_empty, shown_empty, String.append_empty] at h

theorem shown_ofString_append (s : String) (b : RawText) : (s ++ b).shown = s ++ b.shown := by
  by_cases hs : s = ""
  · rw [hs, empty_append, String.empty_append]
  · have h := shown_append_ofString_append (ofString "") hs b
    rwa [empty_append, shown_empty, String.empty_append] at h

/-- A string is shown as it is. -/
@[simp] theorem shown_ofString (s : String) : (ofString s).shown = s := by
  rw [← append_empty (ofString s), shown_ofString_append, shown_empty, String.append_empty]

@[simp] theorem ofString_inj {s t : String} : ofString s = ofString t ↔ s = t :=
  ⟨fun h => by rw [← shown_ofString s, h, shown_ofString], congrArg _⟩

@[simp] theorem string?_ofString (s : String) : (ofString s).string? = some s := by
  rw [string?, shown_ofString, if_pos rfl]

/-- **What a raw text spells** is the string with its bytes. -/
theorem string?_eq_some_iff {a : RawText} {s : String} : a.string? = some s ↔ a = s := by
  constructor
  · intro h
    unfold string? at h
    split at h
    · next hshown => rw [← hshown, Option.some.inj h]
    · cases h
  · rintro rfl
    exact string?_ofString s

theorem isSome_string?_iff {a : RawText} : a.string?.isSome ↔ ofString a.shown = a := by
  unfold string?
  split <;> simp_all

theorem endsWith_ofString {s ending : String} : (ofString s).endsWith ending = Text.endsWith ending s := by
  rw [Bool.eq_iff_iff, endsWith_iff]
  constructor
  · rintro ⟨front, h⟩
    rw [← shown_ofString s, h, shown_append_ofString]
    exact Text.endsWith_append _ _
  · intro h
    obtain ⟨front, rfl⟩ := Text.exists_append_of_endsWith h
    exact ⟨front, ofString_append front ending⟩

/-! ## Texts that are not empty -/

theorem start_ne (b : Nat) : start b ≠ ([], none) := by
  unfold start
  repeat' split
  all_goals simp

/-- A byte spells characters or begins one. -/
theorem step_ne (begun : Option Begun) (b : Nat) : step begun b ≠ ([], none) := by
  cases begun with
  | none => exact start_ne b
  | some c =>
    by_cases hb : c.low ≤ b ∧ b ≤ c.high
    · cases hmissing : c.missing with
      | zero => simp [step_last hb hmissing]
      | succ missing => simp [step_more hb hmissing]
    · simp [step_lost hb]

/-- Only nothing is read as nothing. -/
theorem decode_eq_nil {begun : Option Begun} {bs : List UInt8} (h : decode begun bs = []) : begun = none ∧ bs = [] := by
  induction bs generalizing begun with
  | nil =>
    cases begun with
    | none => exact ⟨rfl, rfl⟩
    | some c => cases h
  | cons b bs ih =>
    rw [decode, List.append_eq_nil_iff] at h
    exact absurd (Prod.ext h.1 (ih h.2).1) (step_ne begun b.toNat)

@[simp] theorem shown_eq_empty_iff {a : RawText} : a.shown = "" ↔ a = ofString "" := by
  constructor
  · intro h
    rw [← String.toList_inj, shown, String.toList_ofList] at h
    exact toList_inj.mp (decode_eq_nil h).2
  · rintro rfl
    rfl

/-! ## Single bytes -/

theorem ofNat_inj_of_lt {m n : Nat} (hm : m < 256) (hn : n < 256) : UInt8.ofNat m = UInt8.ofNat n ↔ m = n := by
  refine ⟨fun h => ?_, congrArg _⟩
  have htoNat := congrArg UInt8.toNat h
  rwa [UInt8.toNat_ofNat_of_lt' hm, UInt8.toNat_ofNat_of_lt' hn] at htoNat

/-- A byte below 128 is in no other character than its own. -/
theorem ofNat_mem_utf8EncodeChar {n : Nat} (h : n < 0x80) (c : Char) :
    UInt8.ofNat n ∈ String.utf8EncodeChar c ↔ n = c.toNat := by
  have hvalid := toNat_lt_or c
  rw [utf8EncodeChar_eq]
  split
  · rw [List.mem_singleton, ofNat_inj_of_lt (by omega) (by omega)]
  split
  · rw [List.mem_cons, List.mem_singleton, ofNat_inj_of_lt (by omega) (by omega), ofNat_inj_of_lt (by omega) (by omega)]
    omega
  split
  · simp only [List.mem_cons, List.not_mem_nil, or_false]
    rw [ofNat_inj_of_lt (by omega) (by omega), ofNat_inj_of_lt (by omega) (by omega),
      ofNat_inj_of_lt (by omega) (by omega)]
    omega
  · simp only [List.mem_cons, List.not_mem_nil, or_false]
    rw [ofNat_inj_of_lt (by omega) (by omega), ofNat_inj_of_lt (by omega) (by omega),
      ofNat_inj_of_lt (by omega) (by omega), ofNat_inj_of_lt (by omega) (by omega)]
    omega

/-- **A byte below 128** stands in a string where its character does. -/
theorem ofNat_mem_ofString {c : Char} (h : c.toNat < 0x80) (s : String) :
    UInt8.ofNat c.toNat ∈ (ofString s).toList ↔ c ∈ s.toList := by
  rw [toList_ofString, List.mem_flatMap]
  constructor
  · rintro ⟨d, hd, hmem⟩
    rwa [Char.toNat_inj.mp ((ofNat_mem_utf8EncodeChar h d).mp hmem)]
  · exact fun hc => ⟨c, hc, (ofNat_mem_utf8EncodeChar h c).mpr rfl⟩

theorem backslash_mem_ofString (s : String) : backslash ∈ (ofString s).toList ↔ '\\' ∈ s.toList :=
  ofNat_mem_ofString (c := '\\') (by decide) s

theorem slash_mem_ofString (s : String) : slash ∈ (ofString s).toList ↔ '/' ∈ s.toList :=
  ofNat_mem_ofString (c := '/') (by decide) s

/-- A string begins with a slash where its bytes do. -/
theorem beginsWith_slash_ofString (s : String) : (ofString s).beginsWith "/" = Text.beginsWith "/" s := by
  rw [beginsWith, toList_slash, toList_ofString, Text.beginsWith]
  change _ = ['/'].isPrefixOf s.toList
  cases s.toList with
  | nil => rfl
  | cons c cs =>
    have hmem := ofNat_mem_utf8EncodeChar (n := '/'.toNat) (by decide) c
    rw [List.flatMap_cons]
    cases hbytes : String.utf8EncodeChar c with
    | nil => exact absurd (congrArg List.length hbytes) (by simpa using Nat.ne_of_gt (Char.utf8Size_pos c))
    | cons b bs =>
      by_cases hc : c = '/'
      · subst hc
        cases hbytes
        rfl
      · have hb : slash ≠ b := fun he => hc (Char.toNat_inj.mp (hmem.mp (hbytes ▸ he ▸ List.mem_cons_self)).symm)
        rw [List.cons_append, List.isPrefixOf_cons_cons, List.isPrefixOf_cons_cons, beq_false_of_ne hb,
          beq_false_of_ne (Ne.symm hc), Bool.false_and, Bool.false_and]

/-! ## ASCII -/

/-- How many numbers some bytes in the middle of a character can tell apart. -/
def spread : (missing : Nat) → Nat
  | 0 => 1
  | missing + 1 => 64 * spread missing

/-- The least number that a begun character may get. -/
def Begun.least (c : Begun) : Nat := (64 * c.bits + (c.low - 0x80)) * spread c.missing

/-- The first number that is too large for a begun character. -/
def Begun.stop (c : Begun) : Nat := (64 * c.bits + (c.high - 0x80) + 1) * spread c.missing

/-- Whatever bytes go on with it, what has been begun becomes a character beyond ASCII. -/
structure Begun.IsLong (c : Begun) : Prop where
  least_ge : 0x80 ≤ c.least
  valid : c.stop ≤ 0xd800 ∨ 0xe000 ≤ c.least ∧ c.stop ≤ 0x110000

theorem isLong_of_start {b : Nat} {c : Begun} (h : (start b).2 = some c) : c.IsLong := by
  unfold start at h
  split at h
  · cases h
  split at h
  · cases h
  split at h
  · obtain rfl := Option.some.inj h
    exact ⟨by simp only [Begun.least, spread]; omega, by simp only [Begun.least, Begun.stop, spread]; omega⟩
  split at h
  · obtain rfl := Option.some.inj h
    constructor
    · change 0x80 ≤ (64 * (b - 0xe0) + ((if b = 0xe0 then 0xa0 else 0x80) - 0x80)) * 64
      split <;> omega
    · change (64 * (b - 0xe0) + ((if b = 0xed then 0x9f else 0xbf) - 0x80) + 1) * 64 ≤ 0xd800 ∨
        0xe000 ≤ (64 * (b - 0xe0) + ((if b = 0xe0 then 0xa0 else 0x80) - 0x80)) * 64 ∧
        (64 * (b - 0xe0) + ((if b = 0xed then 0x9f else 0xbf) - 0x80) + 1) * 64 ≤ 0x110000
      repeat' split
      all_goals omega
  split at h
  · obtain rfl := Option.some.inj h
    constructor
    · change 0x80 ≤ (64 * (b - 0xf0) + ((if b = 0xf0 then 0x90 else 0x80) - 0x80)) * 4096
      split <;> omega
    · change (64 * (b - 0xf0) + ((if b = 0xf4 then 0x8f else 0xbf) - 0x80) + 1) * 4096 ≤ 0xd800 ∨
        0xe000 ≤ (64 * (b - 0xf0) + ((if b = 0xf0 then 0x90 else 0x80) - 0x80)) * 4096 ∧
        (64 * (b - 0xf0) + ((if b = 0xf4 then 0x8f else 0xbf) - 0x80) + 1) * 4096 ≤ 0x110000
      repeat' split
      all_goals omega
  · cases h

theorem toNat_ofNat_of_valid {n : Nat} (h : n < 0xd800 ∨ 0xdfff < n ∧ n < 0x110000) : (Char.ofNat n).toNat = n := by
  have hn : n.isValidChar := h
  rw [Char.ofNat, dif_pos hn]
  rfl

/-- The least and the greatest number that a begun character may get, with one more byte. -/
theorem Begun.IsLong.more {c : Begun} (h : c.IsLong) {b missing : Nat} (hb : c.low ≤ b ∧ b ≤ c.high)
    (hmissing : c.missing = missing + 1) :
    Begun.IsLong ⟨64 * c.bits + (b - 0x80), missing, 0x80, 0xbf, by decide, by decide⟩ := by
  have hlow := c.low_ge
  have hleast : c.least ≤ (64 * c.bits + (b - 0x80)) * spread c.missing :=
    Nat.mul_le_mul_right _ (by omega)
  have hstop : (64 * c.bits + (b - 0x80) + 1) * spread c.missing ≤ c.stop :=
    Nat.mul_le_mul_right _ (by omega)
  rw [hmissing, spread, ← Nat.mul_assoc, Nat.mul_comm _ 64] at hleast hstop
  obtain ⟨hge, hvalid⟩ := h
  have hnext : 64 * (64 * c.bits + (b - 0x80)) + (0xbf - 0x80) + 1 = 64 * (64 * c.bits + (b - 0x80) + 1) := by omega
  constructor <;> simp only [Begun.least, Begun.stop, hnext, Nat.sub_self, Nat.add_zero] <;> omega

theorem Begun.IsLong.last {c : Begun} (h : c.IsLong) {b : Nat} (hb : c.low ≤ b ∧ b ≤ c.high)
    (hmissing : c.missing = 0) :
    0x80 ≤ (Char.ofNat (64 * c.bits + (b - 0x80))).toNat := by
  obtain ⟨hge, hvalid⟩ := h
  simp only [Begun.least, Begun.stop, hmissing, spread, Nat.mul_one] at hge hvalid
  have hlow := c.low_ge
  rw [toNat_ofNat_of_valid (by omega)]
  omega

theorem not_replacement_lt : ¬ replacement.toNat < 0x80 := by decide

/-- What may be read at a byte: of ASCII only the character of the byte itself, and of what is begun only what is
long. -/
structure MayRead (b : Nat) (r : List Char × Option Begun) : Prop where
  spells : ∀ ch ∈ r.1, ch.toNat < 0x80 → ch.toNat = b
  long : ∀ c ∈ r.2, c.IsLong

/-- Something beyond ASCII is read or begun. -/
def LeavesTrace (r : List Char × Option Begun) : Prop := (∃ ch ∈ r.1, 0x80 ≤ ch.toNat) ∨ r.2 ≠ none

theorem mayRead_start (b : Nat) : MayRead b (start b) where
  spells := by
    unfold start
    split
    · next hb =>
      intro ch hch _
      rw [List.mem_singleton.mp hch, toNat_ofNat_of_valid (.inl (by omega))]
    · repeat' split
      all_goals simp [not_replacement_lt]
  long _ hc := isLong_of_start hc

theorem leavesTrace_start {b : Nat} (hb : 0x80 ≤ b) : LeavesTrace (start b) := by
  unfold start LeavesTrace
  rw [if_neg (by omega)]
  repeat' split
  all_goals simp [Nat.not_lt.mp not_replacement_lt]

theorem mayRead_step {begun : Option Begun} (h : ∀ c ∈ begun, c.IsLong) (b : Nat) : MayRead b (step begun b) := by
  have hstart := mayRead_start b
  cases begun with
  | none => exact hstart
  | some c =>
    have hc : c.IsLong := h c rfl
    by_cases hb : c.low ≤ b ∧ b ≤ c.high
    · cases hmissing : c.missing with
      | zero =>
        rw [step_last hb hmissing]
        refine ⟨fun ch hch hlt => ?_, fun c' hc' => (Option.not_mem_none c' hc').elim⟩
        rw [List.mem_singleton.mp hch] at hlt
        exact absurd (hc.last hb hmissing) (Nat.not_le.mpr hlt)
      | succ missing =>
        rw [step_more hb hmissing]
        refine ⟨fun ch hch => (List.not_mem_nil hch).elim, fun c' hc' => ?_⟩
        rw [← Option.mem_some.mp hc']
        exact hc.more hb hmissing
    · rw [step_lost hb]
      refine ⟨fun ch hch hlt => ?_, hstart.long⟩
      rcases List.mem_cons.mp hch with rfl | hch
      · exact absurd hlt not_replacement_lt
      · exact hstart.spells ch hch hlt

/-- Behind something that has been begun, every byte leaves a trace. -/
theorem leavesTrace_step {begun : Option Begun} (h : ∀ c ∈ begun, c.IsLong) {b : Nat}
    (hb : begun ≠ none ∨ 0x80 ≤ b) : LeavesTrace (step begun b) := by
  cases begun with
  | none => exact leavesTrace_start (hb.resolve_left fun hne => hne rfl)
  | some c =>
    by_cases hcontinues : c.low ≤ b ∧ b ≤ c.high
    · cases hmissing : c.missing with
      | zero =>
        rw [step_last hcontinues hmissing]
        exact .inl ⟨_, List.mem_singleton_self _, (h c rfl).last hcontinues hmissing⟩
      | succ missing =>
        rw [step_more hcontinues hmissing]
        exact .inr (Option.some_ne_none _)
    · rw [step_lost hcontinues]
      exact .inl ⟨_, List.mem_cons_self, Nat.not_lt.mp not_replacement_lt⟩

/-- An ASCII character is read from its own byte only. -/
theorem ofNat_mem_of_mem_decode {begun : Option Begun} (h : ∀ c ∈ begun, c.IsLong) {bs : List UInt8} {ch : Char}
    (hch : ch ∈ decode begun bs) (hlt : ch.toNat < 0x80) : UInt8.ofNat ch.toNat ∈ bs := by
  induction bs generalizing begun with
  | nil =>
    cases begun with
    | none => cases hch
    | some c =>
      rw [decode, finish, List.mem_singleton] at hch
      subst hch
      exact absurd hlt (by decide)
  | cons b bs ih =>
    have hread := mayRead_step h b.toNat
    rw [decode, List.mem_append] at hch
    rcases hch with hch | hch
    · rw [hread.spells ch hch hlt, UInt8.ofNat_toNat]
      exact List.mem_cons_self
    · exact List.mem_cons_of_mem _ (ih hread.long hch)

/-- Where only ASCII is read, each byte is read on its own. -/
theorem eq_of_decode_ascii {begun : Option Begun} (h : ∀ c ∈ begun, c.IsLong) {bs : List UInt8}
    (hascii : ∀ ch ∈ decode begun bs, ch.toNat < 0x80) :
    begun = none ∧ bs = (decode begun bs).flatMap String.utf8EncodeChar := by
  induction bs generalizing begun with
  | nil =>
    cases begun with
    | none => exact ⟨rfl, rfl⟩
    | some c => exact absurd (hascii replacement List.mem_cons_self) (by decide)
  | cons b bs ih =>
    rw [decode] at hascii
    obtain ⟨hnone, hbs⟩ := ih (mayRead_step h b.toNat).long fun ch hch => hascii ch (List.mem_append_right _ hch)
    have hb : begun = none ∧ b.toNat < 0x80 := by
      refine Decidable.byContradiction fun hb => ?_
      have hbeyond : begun ≠ none ∨ 0x80 ≤ b.toNat := by
        rw [← Nat.not_lt]
        exact Decidable.not_and_iff_or_not.mp hb
      rcases leavesTrace_step h hbeyond with ⟨ch, hch, hge⟩ | hsome
      · exact absurd (hascii ch (List.mem_append_left _ hch)) (by omega)
      · exact hsome hnone
    obtain ⟨rfl, hb⟩ := hb
    have hstep : step none b.toNat = ([Char.ofNat b.toNat], none) := start_ascii hb
    have hchar : (Char.ofNat b.toNat).toNat = b.toNat := toNat_ofNat_of_valid (.inl (by omega))
    rw [hstep] at hbs
    refine ⟨rfl, ?_⟩
    rw [decode, hstep, List.singleton_append, List.flatMap_cons, ← hbs, utf8EncodeChar_eq, hchar, if_pos (by omega),
      UInt8.ofNat_toNat, List.singleton_append]

theorem isLong_of_mem_none : ∀ c ∈ (none : Option Begun), c.IsLong := fun c hc => (Option.not_mem_none c hc).elim

/-- **ASCII texts** are shown as they are, and nothing else is shown as one. -/
theorem shown_eq_iff_of_ascii {a : RawText} {s : String} (h : s.toList.all (·.toNat < 0x80) = true) :
    a.shown = s ↔ a = s := by
  refine ⟨?_, fun he => by rw [he, shown_ofString]⟩
  rintro rfl
  rw [shown, String.toList_ofList] at h
  rw [← toList_inj, toList_ofString, shown, String.toList_ofList]
  exact (eq_of_decode_ascii isLong_of_mem_none fun ch hch => of_decide_eq_true (List.all_eq_true.mp h ch hch)).2

theorem mem_of_mem_shown {a : RawText} {ch : Char} (h : ch ∈ a.shown.toList) (hlt : ch.toNat < 0x80) :
    UInt8.ofNat ch.toNat ∈ a.toList := by
  rw [shown, String.toList_ofList] at h
  exact ofNat_mem_of_mem_decode isLong_of_mem_none h hlt

/-! ## The order of raw texts -/

theorem compare_eq (a b : RawText) : compare a b = compare a.toList b.toList := rfl

instance : Std.TransOrd RawText where
  eq_swap {a b} := by
    rw [compare_eq, compare_eq]
    exact Std.OrientedCmp.eq_swap
  isLE_trans {a b c} hab hbc := by
    rw [compare_eq] at hab hbc ⊢
    exact Std.TransCmp.isLE_trans hab hbc

instance : Std.LawfulEqOrd RawText where
  eq_of_compare h := toList_inj.mp (Std.LawfulEqOrd.eq_of_compare h)

/-! ## Cutting and joining -/

theorem map_toList_segments (sep : UInt8) (a : RawText) : (a.segments sep).map toList = segmentsOf sep a.toList := by
  simp [segments, Function.comp_def]

theorem segments_ne_nil (sep : UInt8) (a : RawText) : a.segments sep ≠ [] := by
  simp [segments, segmentsOf_ne_nil]

theorem segments_of_not_mem {sep : UInt8} {a : RawText} (h : sep ∉ a.toList) : a.segments sep = [a] := by
  simp [segments, segmentsOf_of_not_mem h]

theorem segments_append (sep : UInt8) (a b : RawText) :
    (a ++ ofList [sep] ++ b).segments sep = a.segments sep ++ b.segments sep := by
  simp [segments, segmentsOf_append_cons]

theorem segments_joined {sep : UInt8} {parts : List RawText} (hne : parts ≠ []) (h : ∀ a ∈ parts, sep ∉ a.toList) :
    (joined sep parts).segments sep = parts := by
  have hpieces : ∀ piece ∈ parts.map toList, sep ∉ piece := by
    intro piece hp
    obtain ⟨a, ha, rfl⟩ := List.mem_map.mp hp
    exact h a ha
  rw [segments, joined, toList_ofList, segmentsOf_joinWith (by simpa using hne) hpieces, List.map_map]
  simp [Function.comp_def]

theorem joined_cons (sep : UInt8) (first : RawText) {parts : List RawText} (h : parts ≠ []) :
    joined sep (first :: parts) = first ++ ofList [sep] ++ joined sep parts := by
  obtain ⟨second, rest, rfl⟩ := List.exists_cons_of_ne_nil h
  rw [← toList_inj]
  simp [joined, joinWith]

/-- Strings are joined as raw texts are. -/
theorem ofString_joined (parts : List String) :
    ofString (Text.joined '/' parts) = joined slash (parts.map ofString) := by
  induction parts with
  | nil => rfl
  | cons first rest ih =>
    by_cases hrest : rest = []
    · simp [hrest, Text.joined, joined, joinWith]
    · rw [Text.joined_cons '/' first hrest, ofString_append, ofString_append, ih, List.map_cons,
        joined_cons slash _ (by simpa using hrest)]
      rfl

/-- **The segments of a string** are those of its bytes. -/
theorem segments_ofString (s : String) : (ofString s).segments slash = (Text.segments '/' s).map ofString := by
  have hslash : ∀ a ∈ (Text.segments '/' s).map ofString, slash ∉ a.toList := by
    intro a ha
    obtain ⟨t, ht, rfl⟩ := List.mem_map.mp ha
    obtain ⟨piece, hpiece, rfl⟩ := List.mem_map.mp ht
    rw [slash_mem_ofString, String.toList_ofList]
    exact not_mem_of_mem_segmentsOf hpiece
  have hne : (Text.segments '/' s).map ofString ≠ [] := by
    simpa [Text.segments] using segmentsOf_ne_nil '/' s.toList
  rw [← segments_joined hne hslash, ← ofString_joined, Text.joined_segments]

theorem mem_segments_ofString {s t : String} : ofString t ∈ (ofString s).segments slash ↔ t ∈ Text.segments '/' s := by
  simp [segments_ofString]

theorem joined_segments (sep : UInt8) (a : RawText) : joined sep (a.segments sep) = a := by
  rw [joined, map_toList_segments, joinWith_segmentsOf]

/-- **A raw text spells a string** when all its segments do. -/
theorem isSome_string?_of_segments {a : RawText} (h : ∀ b ∈ a.segments slash, b.string?.isSome) : a.string?.isSome := by
  have hstrings : a.segments slash = ((a.segments slash).map shown).map ofString := by
    rw [List.map_map]
    exact (List.map_id _).symm.trans (List.map_congr_left fun b hb => (isSome_string?_iff.mp (h b hb)).symm)
  rw [← joined_segments slash a, hstrings, ← ofString_joined, string?_ofString]
  rfl

theorem shown_joined (parts : List RawText) : (joined slash parts).shown = Text.joined '/' (parts.map shown) := by
  induction parts with
  | nil => rfl
  | cons first rest ih =>
    by_cases hrest : rest = []
    · simp [hrest, Text.joined, joinWith]
    · have hne : "/" ≠ "" := by decide
      rw [joined_cons slash first hrest, List.map_cons, Text.joined_cons '/' _ (by simpa using hrest), ← ih]
      exact shown_append_ofString_append first hne (joined slash rest)

end InteropBindings.RawText
