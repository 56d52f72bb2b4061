/-!
# Ledgers

A ledger holds values by key and keeps the keys in the order in which they came.

- writing under a known key replaces the value and keeps its place, a new key goes last (`keys_put`);
- reading gives what was written last (`get?_put`).
-/

namespace InteropBindings

/-- Values by key, in the order in which the keys came. -/
structure Ledger (κ α : Type) where
  entries : List (κ × α)
deriving DecidableEq, Repr

namespace Ledger

variable {κ α : Type} [DecidableEq κ]

/-- The ledger without entries. -/
def empty : Ledger κ α := ⟨[]⟩

/-- The value under a key in a list of entries. -/
def lookup (k : κ) : List (κ × α) → Option α
  | [] => none
  | (k', a) :: rest => if k' = k then some a else lookup k rest

/-- The entries with a value written under a key. -/
def write (k : κ) (a : α) : List (κ × α) → List (κ × α)
  | [] => [(k, a)]
  | (k', a') :: rest => if k' = k then (k, a) :: rest else (k', a') :: write k a rest

/-- The value under a key. -/
def get? (l : Ledger κ α) (k : κ) : Option α := lookup k l.entries

/-- Writes a value under a key. -/
def put (l : Ledger κ α) (k : κ) (a : α) : Ledger κ α := ⟨write k a l.entries⟩

/-- Whether a key is known. -/
def contains (l : Ledger κ α) (k : κ) : Bool := (l.get? k).isSome

/-- The keys in order. -/
def keys (l : Ledger κ α) : List κ := l.entries.map Prod.fst

/-- The values in the order of their keys. -/
def values (l : Ledger κ α) : List α := l.entries.map Prod.snd

/-- The number of keys. -/
def size (l : Ledger κ α) : Nat := l.entries.length

/-- The ledger without the keys that are to go. -/
def without (l : Ledger κ α) (goes : κ → Bool) : Ledger κ α := ⟨l.entries.filter fun e => !goes e.1⟩

/-! ## Reading after writing -/

/-- What is read after writing an entry. -/
theorem lookup_write (k k' : κ) (a : α) (entries : List (κ × α)) :
    lookup k' (write k a entries) = if k = k' then some a else lookup k' entries := by
  induction entries with
  | nil => simp [write, lookup]
  | cons e rest ih =>
    obtain ⟨k₀, a₀⟩ := e
    by_cases h : k₀ = k
    · subst h
      by_cases h' : k₀ = k' <;> simp [write, lookup, h']
    · by_cases h' : k₀ = k'
      · subst h'
        simp [write, lookup, h, Ne.symm h]
      · simp [write, lookup, h, h', ih]

theorem get?_put (l : Ledger κ α) (k k' : κ) (a : α) :
    (l.put k a).get? k' = if k = k' then some a else l.get? k' :=
  lookup_write k k' a l.entries

theorem get?_put_self (l : Ledger κ α) (k : κ) (a : α) : (l.put k a).get? k = some a := by
  simp [get?_put]

theorem get?_put_of_ne (l : Ledger κ α) {k k' : κ} (a : α) (h : k ≠ k') : (l.put k a).get? k' = l.get? k' := by
  simp [get?_put, h]

/-! ## Keys -/

theorem lookup_isSome (k : κ) (entries : List (κ × α)) : (lookup k entries).isSome ↔ k ∈ entries.map Prod.fst := by
  induction entries with
  | nil => simp [lookup]
  | cons e rest ih =>
    obtain ⟨k', a⟩ := e
    by_cases h : k' = k
    · simp [lookup, h]
    · simp [lookup, h, ih, Ne.symm h]

theorem contains_iff (l : Ledger κ α) (k : κ) : l.contains k = true ↔ k ∈ l.keys :=
  lookup_isSome k l.entries

/-- The keys of written entries. -/
theorem map_fst_write (k : κ) (a : α) (entries : List (κ × α)) :
    (write k a entries).map Prod.fst =
      if k ∈ entries.map Prod.fst then entries.map Prod.fst else entries.map Prod.fst ++ [k] := by
  induction entries with
  | nil => simp [write]
  | cons e rest ih =>
    obtain ⟨k', a'⟩ := e
    by_cases h : k' = k
    · simp [write, h]
    · simp only [write, h, if_false, List.map_cons, ih, List.mem_cons, Ne.symm h, false_or]
      split <;> simp

/-- Writing keeps the keys, or puts a new one last. -/
theorem keys_put (l : Ledger κ α) (k : κ) (a : α) :
    (l.put k a).keys = if k ∈ l.keys then l.keys else l.keys ++ [k] :=
  map_fst_write k a l.entries

theorem nodup_keys_put {l : Ledger κ α} (k : κ) (a : α) (h : l.keys.Nodup) : (l.put k a).keys.Nodup := by
  rw [keys_put]
  split
  · exact h
  · next hk =>
    rw [List.nodup_append]
    exact ⟨h, by simp, fun x hx y hy e => hk (by simp at hy; rw [← hy, ← e]; exact hx)⟩

end Ledger

end InteropBindings
