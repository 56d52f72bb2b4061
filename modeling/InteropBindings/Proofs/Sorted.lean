import InteropBindings.Sorted

/-!
# Sorted sets of a lawful order

Of elements that compare equal a sorted set keeps one. So it has as many elements as its list exactly when no two
elements of the list compare equal (`Sorted.length_ofList_eq_iff`).
-/

namespace InteropBindings.Sorted

variable {α : Type} {cmp : α → α → Ordering}

/-- A sorted set holds nothing but the elements of its list. -/
theorem mem_of_mem_ofList {x : α} {xs : List α} (h : x ∈ ofList cmp xs) : x ∈ xs := by
  suffices hsuff : ∀ set, x ∈ xs.foldl (fun set x => insert cmp x set) set → x ∈ set ∨ x ∈ xs by
    simpa using hsuff [] h
  clear h
  induction xs with
  | nil => exact fun set h => .inl h
  | cons y xs ih =>
    intro set h
    rcases ih _ h with h | h
    · rcases mem_of_mem_insert h with rfl | h
      · exact .inr List.mem_cons_self
      · exact .inl h
    · exact .inr (List.mem_cons_of_mem _ h)

theorem mem_foldl_insert {x : α} {set : List α} (xs : List α) (h : x ∈ set) :
    x ∈ xs.foldl (fun set x => insert cmp x set) set := by
  induction xs generalizing set with
  | nil => exact h
  | cons y xs ih => exact ih (mem_insert_of_mem h)

theorem sublist_insert (x : α) (ys : List α) : ys.Sublist (insert cmp x ys) := by
  induction ys with
  | nil => exact List.nil_sublist _
  | cons y ys ih =>
    simp only [insert]
    split
    · exact List.sublist_cons_self x _
    · exact List.Sublist.refl _
    · exact ih.cons_cons y

/-- A set keeps its elements, in their order, when more come in. -/
theorem sublist_foldl_insert {set : List α} (xs : List α) :
    set.Sublist (xs.foldl (fun set x => insert cmp x set) set) := by
  induction xs generalizing set with
  | nil => exact List.Sublist.refl _
  | cons x xs ih => exact (sublist_insert x set).trans ih

/-- After an element has come in, one that compares equal is there. -/
theorem exists_mem_insert [Std.ReflCmp cmp] (x : α) (ys : List α) : ∃ y ∈ insert cmp x ys, cmp x y = .eq := by
  induction ys with
  | nil => exact ⟨x, List.mem_cons_self, Std.ReflCmp.compare_self⟩
  | cons y ys ih =>
    simp only [insert]
    split
    · exact ⟨x, List.mem_cons_self, Std.ReflCmp.compare_self⟩
    · next h => exact ⟨y, List.mem_cons_self, h⟩
    · obtain ⟨z, hz, he⟩ := ih
      exact ⟨z, List.mem_cons_of_mem _ hz, he⟩

/-- A sorted set holds an element that compares equal to each of its list. -/
theorem exists_mem_ofList [Std.ReflCmp cmp] {x : α} {xs : List α} (h : x ∈ xs) :
    ∃ y ∈ ofList cmp xs, cmp x y = .eq := by
  suffices hsuff : ∀ set, ∃ y ∈ xs.foldl (fun set x => insert cmp x set) set, cmp x y = .eq from hsuff []
  induction xs with
  | nil => cases h
  | cons y xs ih =>
    intro set
    rcases List.mem_cons.mp h with rfl | h
    · have hx : ∃ y ∈ insert cmp x set, cmp x y = .eq := exists_mem_insert x set
      obtain ⟨z, hz, he⟩ := hx
      exact ⟨z, mem_foldl_insert xs hz, he⟩
    · exact ih h _

/-! ## The order of a set -/

/-- Whether a list is sorted, each element once. -/
abbrev IsSorted (cmp : α → α → Ordering) (xs : List α) : Prop := xs.Pairwise fun x y => cmp x y = .lt

variable [Std.TransCmp cmp]

/-- Inserting an element keeps a set sorted. -/
theorem isSorted_insert (x : α) {ys : List α} (h : IsSorted cmp ys) : IsSorted cmp (insert cmp x ys) := by
  induction ys with
  | nil => simp [insert]
  | cons y ys ih =>
    obtain ⟨hy, hys⟩ := List.pairwise_cons.mp h
    simp only [insert]
    split
    · next hlt =>
      refine List.pairwise_cons.mpr ⟨fun z hz => ?_, h⟩
      rcases List.mem_cons.mp hz with rfl | hz
      · exact hlt
      · exact Std.TransCmp.lt_trans hlt (hy z hz)
    · exact h
    · next hgt =>
      refine List.pairwise_cons.mpr ⟨fun z hz => ?_, ih hys⟩
      rcases mem_of_mem_insert hz with rfl | hz
      · exact Std.OrientedCmp.gt_iff_lt.mp hgt
      · exact hy z hz

theorem isSorted_ofList (xs : List α) : IsSorted cmp (ofList cmp xs) := by
  suffices hsuff : ∀ set, IsSorted cmp set → IsSorted cmp (xs.foldl (fun set x => insert cmp x set) set) from
    hsuff [] List.Pairwise.nil
  induction xs with
  | nil => exact fun set h => h
  | cons x xs ih => exact fun set h => ih _ (isSorted_insert x h)

/-- An element that compares equal to one in the set does not come in. -/
theorem insert_of_exists {x : α} {ys : List α} (h : IsSorted cmp ys) (hx : ∃ y ∈ ys, cmp x y = .eq) :
    insert cmp x ys = ys := by
  obtain ⟨z, hz, he⟩ := hx
  induction ys with
  | nil => cases hz
  | cons y ys ih =>
    obtain ⟨hy, hys⟩ := List.pairwise_cons.mp h
    simp only [insert]
    split
    · next hlt =>
      have hxz : cmp x z = .lt := by
        rcases List.mem_cons.mp hz with rfl | hz
        · exact hlt
        · exact Std.TransCmp.lt_trans hlt (hy z hz)
      rw [he] at hxz
      cases hxz
    · rfl
    · next hgt =>
      rcases List.mem_cons.mp hz with rfl | hz
      · rw [he] at hgt
        cases hgt
      · rw [ih hys hz]

omit [Std.TransCmp cmp] in
/-- An element that compares equal to none in the set comes in. -/
theorem insert_of_forall {x : α} {ys : List α} (h : ∀ y ∈ ys, cmp x y ≠ .eq) :
    (insert cmp x ys).length = ys.length + 1 ∧ x ∈ insert cmp x ys := by
  induction ys with
  | nil => exact ⟨rfl, List.mem_cons_self⟩
  | cons y ys ih =>
    simp only [insert]
    split
    · exact ⟨rfl, List.mem_cons_self⟩
    · next he => exact absurd he (h y List.mem_cons_self)
    · obtain ⟨hlength, hmem⟩ := ih fun z hz => h z (List.mem_cons_of_mem _ hz)
      exact ⟨by simp [hlength], List.mem_cons_of_mem _ hmem⟩

/-! ## How many elements there are -/

/-- A set grows by at most one element for each that comes in. -/
theorem length_foldl_insert_le {set : List α} (hset : IsSorted cmp set) (xs : List α) :
    (xs.foldl (fun set x => insert cmp x set) set).length ≤ set.length + xs.length := by
  induction xs generalizing set with
  | nil => exact Nat.le_refl _
  | cons x xs ih =>
    have hih := ih (isSorted_insert x hset)
    rw [List.foldl_cons, List.length_cons]
    by_cases hx : ∃ y ∈ set, cmp x y = .eq
    · rw [insert_of_exists hset hx] at hih ⊢
      omega
    · have hnew := insert_of_forall fun y hy he => hx ⟨y, hy, he⟩
      omega

/-- A set grows by one element for each that comes in exactly when each compares equal to no other one. -/
theorem length_foldl_insert_eq_iff {set : List α} (hset : IsSorted cmp set) (xs : List α) :
    (xs.foldl (fun set x => insert cmp x set) set).length = set.length + xs.length ↔
      xs.Pairwise (fun x y => cmp x y ≠ .eq) ∧ ∀ x ∈ xs, ∀ y ∈ set, cmp x y ≠ .eq := by
  induction xs generalizing set with
  | nil => simp
  | cons x xs ih =>
    rw [List.foldl_cons, List.length_cons, List.pairwise_cons]
    by_cases hx : ∃ y ∈ set, cmp x y = .eq
    · obtain ⟨y, hy, he⟩ := hx
      rw [insert_of_exists hset ⟨y, hy, he⟩]
      have hle := length_foldl_insert_le hset xs
      exact ⟨fun h => by omega, fun h => absurd he (h.2 x List.mem_cons_self y hy)⟩
    · have hall : ∀ y ∈ set, cmp x y ≠ .eq := fun y hy he => hx ⟨y, hy, he⟩
      obtain ⟨hlength, hmem⟩ := insert_of_forall hall
      have hsymm : ∀ z, cmp z x = .eq ↔ cmp x z = .eq := fun z => Std.OrientedCmp.eq_comm
      rw [show set.length + (xs.length + 1) = (insert cmp x set).length + xs.length by omega,
        ih (isSorted_insert x hset)]
      constructor
      · rintro ⟨hpair, hset'⟩
        refine ⟨⟨fun z hz he => hset' z hz x hmem ((hsymm z).mpr he), hpair⟩, fun z hz y hy => ?_⟩
        rcases List.mem_cons.mp hz with rfl | hz
        · exact hall y hy
        · exact hset' z hz y (mem_insert_of_mem hy)
      · rintro ⟨⟨hxs, hpair⟩, hset'⟩
        refine ⟨hpair, fun z hz y hy => ?_⟩
        rcases mem_of_mem_insert hy with rfl | hy
        · exact fun he => hxs z hz ((hsymm z).mp he)
        · exact hset' z (List.mem_cons_of_mem _ hz) y hy

theorem length_ofList_le (xs : List α) : (ofList cmp xs).length ≤ xs.length := by
  have hnil : IsSorted cmp ([] : List α) := List.Pairwise.nil
  have h := length_foldl_insert_le hnil xs
  simpa [ofList] using h

/-- **A sorted set has an element for each of its list** exactly when no two compare equal. -/
theorem length_ofList_eq_iff (xs : List α) :
    (ofList cmp xs).length = xs.length ↔ xs.Pairwise fun x y => cmp x y ≠ .eq := by
  have hnil : IsSorted cmp ([] : List α) := List.Pairwise.nil
  have h := length_foldl_insert_eq_iff hnil xs
  simpa [ofList] using h

end InteropBindings.Sorted
