/-!
# First occurrences

`firsts key seen xs` keeps, of the elements of `xs` whose key is not among `seen`, the first one for each key.
Duplicates are suppressed in this way wherever a record grows, so the laws here follow the growth:

- one element in front (`firsts_cons`), further elements behind (`firsts_append`);
- the keys that are kept (`map_firsts`, `mem_map_firsts`), and what is kept for one key (`filter_firsts`);
- renaming keys one to one changes nothing (`firsts_map_of_injective`).
-/

namespace InteropBindings

variable {α β κ κ' : Type} [DecidableEq κ] [DecidableEq κ']

/-- The first elements with keys that have not been seen. -/
def firsts (key : α → κ) (seen : List κ) (xs : List α) : List α :=
  (xs.filter fun x => key x ∉ seen).eraseDupsBy fun x y => key x == key y

section

variable (key : α → κ)

@[simp] theorem firsts_nil (seen : List κ) : firsts key seen [] = [] := rfl

theorem firsts_eq_nil {seen : List κ} {xs : List α} (h : ∀ x ∈ xs, key x ∈ seen) : firsts key seen xs = [] := by
  have hnone : xs.filter (fun x => key x ∉ seen) = [] :=
    List.filter_eq_nil_iff.mpr fun x hx => by simpa using h x hx
  rw [firsts, hnone, List.eraseDupsBy_nil]

theorem firsts_nil_seen (xs : List α) : firsts key [] xs = xs.eraseDupsBy fun x y => key x == key y := by
  rw [firsts, List.filter_eq_self.mpr fun x _ => by simp]

/-- The first element is kept when its key is new, and its key has been seen from then on. -/
theorem firsts_cons (seen : List κ) (x : α) (xs : List α) :
    firsts key seen (x :: xs) = if key x ∈ seen then firsts key seen xs else x :: firsts key (key x :: seen) xs := by
  unfold firsts
  by_cases h : key x ∈ seen
  · simp [h]
  · rw [List.filter_cons_of_pos (by simpa using h), List.eraseDupsBy_cons, List.filter_filter, if_neg h]
    congr 3
    funext y
    simp [Bool.decide_and]

theorem firsts_congr {seen seen' : List κ} (h : ∀ k, k ∈ seen ↔ k ∈ seen') (xs : List α) :
    firsts key seen xs = firsts key seen' xs := by
  simp only [firsts, h]

/-- Of what comes later, that is kept which the earlier elements do not hold either. -/
theorem firsts_append (seen : List κ) (xs ys : List α) :
    firsts key seen (xs ++ ys) = firsts key seen xs ++ firsts key (seen ++ xs.map key) ys := by
  induction xs generalizing seen with
  | nil => simp
  | cons x xs ih =>
    simp only [List.cons_append, firsts_cons]
    split
    · next h =>
      rw [ih]
      congr 1
      refine firsts_congr key (fun k => ?_) ys
      simp only [List.map_cons, List.mem_append, List.mem_cons]
      constructor
      · rintro (hk | hk)
        · exact .inl hk
        · exact .inr (.inr hk)
      · rintro (hk | rfl | hk)
        · exact .inl hk
        · exact .inl h
        · exact .inr hk
    · rw [ih, List.cons_append]
      congr 2
      refine firsts_congr key (fun k => ?_) ys
      simp only [List.map_cons, List.mem_append, List.mem_cons]
      exact or_left_comm

/-- What is kept comes from the list and is new. -/
theorem mem_of_mem_firsts {seen : List κ} {x : α} {xs : List α} (h : x ∈ firsts key seen xs) :
    x ∈ xs ∧ key x ∉ seen := by
  induction xs generalizing seen with
  | nil => cases h
  | cons y ys ih =>
    rw [firsts_cons] at h
    split at h
    · exact ⟨List.mem_cons_of_mem _ (ih h).1, (ih h).2⟩
    · next hy =>
      rcases List.mem_cons.mp h with rfl | h
      · exact ⟨List.mem_cons_self, hy⟩
      · have := ih h
        exact ⟨List.mem_cons_of_mem _ this.1, fun hs => this.2 (List.mem_cons_of_mem _ hs)⟩

/-- No key is kept twice. -/
theorem nodup_map_firsts (seen : List κ) (xs : List α) : ((firsts key seen xs).map key).Nodup := by
  induction xs generalizing seen with
  | nil => exact List.nodup_nil
  | cons x xs ih =>
    rw [firsts_cons]
    split
    · exact ih seen
    · rw [List.map_cons, List.nodup_cons]
      refine ⟨fun hmem => ?_, ih _⟩
      obtain ⟨y, hy, hkey⟩ := List.mem_map.mp hmem
      exact (mem_of_mem_firsts key hy).2 (hkey ▸ List.mem_cons_self)

/-- What is kept for one key: the first element that has it, unless the key has been seen. -/
theorem filter_firsts (seen : List κ) (k : κ) (xs : List α) :
    (firsts key seen xs).filter (fun x => key x = k) =
      if k ∈ seen then [] else (xs.find? fun x => key x = k).toList := by
  induction xs generalizing seen with
  | nil => simp
  | cons x xs ih =>
    rw [firsts_cons]
    by_cases hx : key x ∈ seen
    · rw [if_pos hx, ih]
      split
      · rfl
      · next hk =>
        have : key x ≠ k := fun e => hk (e ▸ hx)
        simp [this]
    · rw [if_neg hx]
      by_cases he : key x = k
      · subst he
        simp [ih, hx]
      · simp [ih, he, Ne.symm he]

/-- Where nothing has been seen, that is kept which is the first element with its key. -/
theorem mem_firsts_nil_iff {x : α} {xs : List α} :
    x ∈ firsts key [] xs ↔ xs.find? (fun y => key y = key x) = some x := by
  have h := filter_firsts key [] (key x) xs
  rw [if_neg List.not_mem_nil] at h
  rw [← Option.mem_toList, ← h, List.mem_filter]
  simp

/-- The keys that are kept are the first occurrences of the new keys. -/
theorem map_firsts (seen : List κ) (xs : List α) :
    (firsts key seen xs).map key = ((xs.map key).removeAll seen).eraseDups := by
  induction xs generalizing seen with
  | nil => simp
  | cons x xs ih =>
    rw [firsts_cons, List.map_cons, List.cons_removeAll]
    by_cases hx : key x ∈ seen
    · simp [hx, ih]
    · rw [if_neg hx, List.map_cons, ih, List.removeAll_cons]
      simp [hx, List.eraseDups_cons, List.removeAll, List.filter_filter, Bool.and_comm]

theorem mem_map_firsts {seen : List κ} {k : κ} {xs : List α} :
    k ∈ (firsts key seen xs).map key ↔ k ∈ xs.map key ∧ k ∉ seen := by
  rw [map_firsts, List.mem_eraseDups, List.removeAll, List.mem_filter]
  simp

theorem firsts_eq_nil_iff {seen : List κ} {xs : List α} : firsts key seen xs = [] ↔ ∀ x ∈ xs, key x ∈ seen := by
  refine ⟨fun h x hx => ?_, firsts_eq_nil key⟩
  by_cases hseen : key x ∈ seen
  · exact hseen
  · have hkept : key x ∈ (firsts key seen xs).map key := (mem_map_firsts key).mpr ⟨List.mem_map_of_mem hx, hseen⟩
    rw [h] at hkept
    cases hkept

end

/-- Renaming the elements, and their keys one to one, changes nothing. -/
theorem firsts_map_of_injective {key : α → κ} {key' : β → κ'} {f : β → α} {g : κ' → κ}
    (hg : ∀ a b, g a = g b → a = b) {ys : List β} (hf : ∀ y ∈ ys, key (f y) = g (key' y)) {seen : List κ}
    {seen' : List κ'} (hs : ∀ k, g k ∈ seen ↔ k ∈ seen') :
    firsts key seen (ys.map f) = (firsts key' seen' ys).map f := by
  induction ys generalizing seen seen' with
  | nil => rfl
  | cons y ys ih =>
    have hys : ∀ z ∈ ys, key (f z) = g (key' z) := fun z hz => hf z (List.mem_cons_of_mem _ hz)
    rw [List.map_cons, firsts_cons, firsts_cons]
    simp only [hf y List.mem_cons_self, hs]
    split
    · exact ih hys hs
    · rw [List.map_cons, ih hys]
      intro k
      simp only [List.mem_cons, hs]
      exact or_congr_left ⟨fun h => hg _ _ h, fun h => by rw [h]⟩

end InteropBindings
