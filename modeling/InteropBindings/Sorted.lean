/-!
# Sorted sets

Sets as lists without repetition in the order of a comparison.
-/

namespace InteropBindings.Sorted

variable {α : Type}

/-- Inserts an element unless one that compares equal is there. -/
def insert (cmp : α → α → Ordering) (x : α) : List α → List α
  | [] => [x]
  | y :: ys =>
    match cmp x y with
    | .lt => x :: y :: ys
    | .eq => y :: ys
    | .gt => y :: insert cmp x ys

/-- The elements of a list as a sorted set. -/
def ofList (cmp : α → α → Ordering) (xs : List α) : List α := xs.foldl (fun set x => insert cmp x set) []

/-- Nothing but the new element comes in. -/
theorem mem_of_mem_insert {cmp : α → α → Ordering} {x z : α} {ys : List α} (h : z ∈ insert cmp x ys) :
    z = x ∨ z ∈ ys := by
  induction ys with
  | nil => simpa [insert] using h
  | cons y ys ih =>
    simp only [insert] at h
    split at h
    · simpa using h
    · exact .inr h
    · rcases List.mem_cons.mp h with h | h
      · exact .inr (by simp [h])
      · rcases ih h with h | h
        · exact .inl h
        · exact .inr (List.mem_cons_of_mem _ h)

/-- What was there stays. -/
theorem mem_insert_of_mem {cmp : α → α → Ordering} {x z : α} {ys : List α} (h : z ∈ ys) : z ∈ insert cmp x ys := by
  induction ys with
  | nil => exact absurd h (by simp)
  | cons y ys ih =>
    simp only [insert]
    split
    · exact List.mem_cons_of_mem _ h
    · exact h
    · rcases List.mem_cons.mp h with h | h
      · simp [h]
      · exact List.mem_cons_of_mem _ (ih h)

/-- Where only equal elements compare equal, the new element is in. -/
theorem mem_insert_self {cmp : α → α → Ordering} (heq : ∀ a b, cmp a b = .eq → a = b) (x : α) (ys : List α) :
    x ∈ insert cmp x ys := by
  induction ys with
  | nil => simp [insert]
  | cons y ys ih =>
    simp only [insert]
    split
    · simp
    · next h => simp [heq _ _ h]
    · exact List.mem_cons_of_mem _ ih

/-- Where only equal elements compare equal, a sorted set has the elements of its list. -/
theorem mem_ofList {cmp : α → α → Ordering} (heq : ∀ a b, cmp a b = .eq → a = b) {z : α} {xs : List α} :
    z ∈ ofList cmp xs ↔ z ∈ xs := by
  suffices h : ∀ set, z ∈ xs.foldl (fun set x => insert cmp x set) set ↔ z ∈ set ∨ z ∈ xs by
    simpa [ofList] using h []
  induction xs with
  | nil => simp
  | cons x xs ih =>
    intro set
    have hinsert : z ∈ insert cmp x set ↔ z = x ∨ z ∈ set := by
      refine ⟨mem_of_mem_insert, ?_⟩
      rintro (rfl | h)
      · exact mem_insert_self heq z set
      · exact mem_insert_of_mem h
    rw [List.foldl_cons, ih, hinsert, List.mem_cons, or_assoc, or_left_comm]

end InteropBindings.Sorted
