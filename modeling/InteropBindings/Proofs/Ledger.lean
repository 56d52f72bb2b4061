import InteropBindings.Ledger

/-!
# Ledgers written one entry after the other

Keys keep the place at which they first come up, and values are those written last.

- the keys of a ledger after any number of writes are the first occurrences of what was written (`keys_foldl_put`);
- no key comes twice (`nodup_keys_foldl_put`), so that the entries are what is read under their keys
  (`mem_entries_iff`).
-/

namespace InteropBindings.Ledger

variable {κ α β : Type}

@[simp] theorem keys_empty : (empty : Ledger κ α).keys = [] := rfl

theorem length_keys (l : Ledger κ α) : l.keys.length = l.size := List.length_map ..

variable [DecidableEq κ]

@[simp] theorem get?_empty (k : κ) : (empty : Ledger κ α).get? k = none := rfl

/-- What is found in a list of entries is one of them. -/
theorem mem_of_lookup {k : κ} {a : α} {entries : List (κ × α)} (h : lookup k entries = some a) : (k, a) ∈ entries := by
  induction entries with
  | nil => cases h
  | cons e rest ih =>
    obtain ⟨k', a'⟩ := e
    simp only [lookup] at h
    split at h
    · next hk => cases h; exact hk ▸ List.mem_cons_self
    · exact List.mem_cons_of_mem _ (ih h)

/-- Where no key comes twice, an entry is what is found under its key. -/
theorem lookup_of_mem {k : κ} {a : α} {entries : List (κ × α)} (hn : (entries.map Prod.fst).Nodup)
    (h : (k, a) ∈ entries) : lookup k entries = some a := by
  induction entries with
  | nil => cases h
  | cons e rest ih =>
    obtain ⟨k', a'⟩ := e
    rw [List.map_cons, List.nodup_cons] at hn
    rcases List.mem_cons.mp h with h | h
    · cases h
      simp [lookup]
    · have hk : k ∈ rest.map Prod.fst := List.mem_map.mpr ⟨(k, a), h, rfl⟩
      have hne : k' ≠ k := fun he => hn.1 (he ▸ hk)
      simp [lookup, hne, ih hn.2 h]

/-- Where no key comes twice, the entries are what is read under their keys. -/
theorem mem_entries_iff {l : Ledger κ α} (hn : l.keys.Nodup) {k : κ} {a : α} : (k, a) ∈ l.entries ↔ l.get? k = some a :=
  ⟨lookup_of_mem hn, mem_of_lookup⟩

/-- Writing under a key moves no key. -/
theorem keys_prefix_keys_put (l : Ledger κ α) (k : κ) (a : α) : l.keys <+: (l.put k a).keys := by
  rw [keys_put]
  split
  · exact List.prefix_rfl
  · exact List.prefix_append ..

/-! ## Many writes -/

/-- The keys after writing an entry for each element, whatever is written. -/
theorem keys_foldl_put (key : β → κ) (value : Ledger κ α → β → α) (xs : List β) (l : Ledger κ α) :
    (xs.foldl (fun l x => l.put (key x) (value l x)) l).keys
      = l.keys ++ ((xs.map key).removeAll l.keys).eraseDups := by
  induction xs generalizing l with
  | nil => simp
  | cons x xs ih =>
    rw [List.foldl_cons, ih, keys_put, List.map_cons, List.cons_removeAll]
    by_cases h : key x ∈ l.keys
    · simp [h]
    · simp [h, List.eraseDups_cons, List.removeAll, List.filter_filter, Bool.and_comm, Bool.beq_eq_decide_eq]

/-- Writing entries under other keys changes nothing. -/
theorem get?_foldl_put_of_ne {key : β → κ} (value : β → α) {xs : List β} {k : κ} (l : Ledger κ α)
    (h : ∀ x ∈ xs, key x ≠ k) : (xs.foldl (fun l x => l.put (key x) (value x)) l).get? k = l.get? k := by
  induction xs generalizing l with
  | nil => rfl
  | cons x xs ih =>
    rw [List.foldl_cons, ih _ fun y hy => h y (List.mem_cons_of_mem _ hy), get?_put_of_ne _ _ (h x List.mem_cons_self)]

/-- Entries that all have one value leave it under each of their keys. -/
theorem get?_foldl_put_of_forall {key : β → κ} {value : β → α} {a : α} {xs : List β} {k : κ} (l : Ledger κ α)
    (hv : ∀ x ∈ xs, value x = a) (h : ∃ x ∈ xs, key x = k) :
    (xs.foldl (fun l x => l.put (key x) (value x)) l).get? k = some a := by
  induction xs generalizing l with
  | nil => obtain ⟨x, hx, _⟩ := h; cases hx
  | cons x xs ih =>
    rw [List.foldl_cons]
    by_cases hxs : ∃ y ∈ xs, key y = k
    · exact ih _ (fun y hy => hv y (List.mem_cons_of_mem _ hy)) hxs
    · have hne : ∀ y ∈ xs, key y ≠ k := fun y hy he => hxs ⟨y, hy, he⟩
      obtain ⟨y, hy, rfl⟩ := h
      rcases List.mem_cons.mp hy with rfl | hy
      · rw [get?_foldl_put_of_ne value _ hne, get?_put_self, hv y List.mem_cons_self]
      · exact absurd rfl (hne y hy)

theorem nodup_keys_foldl_put (key : β → κ) (value : Ledger κ α → β → α) (xs : List β) {l : Ledger κ α}
    (h : l.keys.Nodup) : (xs.foldl (fun l x => l.put (key x) (value l x)) l).keys.Nodup := by
  induction xs generalizing l with
  | nil => exact h
  | cons x xs ih => exact ih (nodup_keys_put _ _ h)

/-! ## Equality -/

/-- Writing what is found already changes nothing. -/
theorem write_of_lookup {k : κ} {a : α} {entries : List (κ × α)} (h : lookup k entries = some a) :
    write k a entries = entries := by
  induction entries with
  | nil => cases h
  | cons e rest ih =>
    obtain ⟨k', a'⟩ := e
    simp only [lookup] at h
    simp only [write]
    split at h
    · next hk =>
      cases h
      rw [if_pos hk, hk]
    · next hk => rw [if_neg hk, ih h]

theorem put_of_get? {l : Ledger κ α} {k : κ} {a : α} (h : l.get? k = some a) : l.put k a = l :=
  congrArg Ledger.mk (write_of_lookup h)

/-- Of two values written under a key the last one stays. -/
theorem write_write (k : κ) (a b : α) (entries : List (κ × α)) : write k b (write k a entries) = write k b entries := by
  induction entries with
  | nil => simp [write]
  | cons e rest ih =>
    obtain ⟨k', a'⟩ := e
    by_cases hk : k' = k
    · simp [write, hk]
    · simp [write, hk, ih]

/-- Writing twice under a key is writing the last value. -/
theorem put_put (l : Ledger κ α) (k : κ) (a b : α) : (l.put k a).put k b = l.put k b :=
  congrArg Ledger.mk (write_write k a b l.entries)

theorem keys_put_of_mem {l : Ledger κ α} {k : κ} (a : α) (h : k ∈ l.keys) : (l.put k a).keys = l.keys := by
  rw [keys_put, if_pos h]

/-- Lists of entries with the same keys and the same values are the same. -/
theorem entries_ext {xs ys : List (κ × α)} (hn : (xs.map Prod.fst).Nodup) (hkeys : xs.map Prod.fst = ys.map Prod.fst)
    (hvalues : ∀ k ∈ xs.map Prod.fst, lookup k xs = lookup k ys) : xs = ys := by
  induction xs generalizing ys with
  | nil => exact (List.map_eq_nil_iff.mp hkeys.symm).symm
  | cons x xs ih =>
    cases ys with
    | nil => cases hkeys
    | cons y ys =>
      obtain ⟨k, a⟩ := x
      obtain ⟨k', b⟩ := y
      rw [List.map_cons, List.map_cons, List.cons.injEq] at hkeys
      obtain ⟨rfl, hkeys⟩ : k = k' ∧ _ := hkeys
      rw [List.map_cons, List.nodup_cons] at hn
      have hfirst := hvalues k List.mem_cons_self
      simp only [lookup, if_true, Option.some.injEq] at hfirst
      subst hfirst
      refine congrArg _ (ih hn.2 hkeys fun j hj => ?_)
      have hne : k ≠ j := fun he => hn.1 (he ▸ hj)
      have hrest := hvalues j (List.mem_cons_of_mem _ hj)
      simpa only [lookup, if_neg hne] using hrest

/-- **Ledgers** with the same keys and the same values are the same. -/
theorem ext_of_keys {l l' : Ledger κ α} (hn : l.keys.Nodup) (hkeys : l.keys = l'.keys)
    (hvalues : ∀ k ∈ l.keys, l.get? k = l'.get? k) : l = l' :=
  congrArg Ledger.mk (entries_ext hn hkeys hvalues)

end InteropBindings.Ledger
