import InteropBindings.Output.Routing
import InteropBindings.Proofs.Declaration.Nesting
import InteropBindings.Proofs.Ledger

/-!
# Records and the declarations sent to them

Declarations for all paths are routed in one pass. A record only depends on those that are sent to its own path, in the
order in which they are visited (`OutputRecords.get?_route`).
-/

namespace InteropBindings

/-- A record after further declarations. -/
def OutputRecord.addAll (table : SymbolTable) (r : OutputRecord) (ls : List Located) : OutputRecord :=
  ls.foldl (fun r l => r.add (OutputRecords.scopeOf table l) l.declaration) r

namespace OutputRecords

variable (table : SymbolTable) (layout : OutputLayout)

/-- The declarations of some files that have a binding, platform files apart, in the order in which they are visited. -/
def visited (files : List DeclarationFile) : List Located :=
  files.flatMap fun file => if table.isPlatform file.path then [] else boundOf file

/-- The declarations of some files that are sent to a path. -/
def sentTo (files : List DeclarationFile) (path : String) : List Located :=
  (visited table files).filter fun l => layout.pathOf l = path

/-- What is visited are the declarations with a binding of the files that are no platform files. -/
theorem visited_eq_flatMap (files : List DeclarationFile) :
    visited table files = (files.filter fun file => !table.isPlatform file.path).flatMap boundOf := by
  induction files with
  | nil => rfl
  | cons file files ih =>
    rw [visited, List.flatMap_cons, ← visited, ih]
    by_cases hp : table.isPlatform file.path = true
    · simp [hp]
    · simp [hp]

/-- What is visited are the declarations with a binding, at any depth. -/
theorem mem_visited {files : List DeclarationFile} {l : Located} :
    l ∈ visited table files ↔ ∃ file ∈ files, table.isPlatform file.path = false ∧ l.file = file.path ∧
      file.Declares l.around l.declaration ∧ l.declaration.isBound = true := by
  simp only [visited, List.mem_flatMap]
  refine exists_congr fun file => and_congr_right fun _ => ?_
  by_cases hp : table.isPlatform file.path = true
  · simp [hp]
  · simp [hp, boundOf, DeclarationFile.mem_located, and_assoc]

/-- Routing files is sending what is visited. -/
theorem route_eq_foldl (files : List DeclarationFile) :
    route files table layout = (visited table files).foldl (send table layout) .empty := by
  suffices h : ∀ records, files.foldl (routeFile table layout) records
      = (visited table files).foldl (send table layout) records from h _
  induction files with
  | nil => exact fun _ => rfl
  | cons file files ih =>
    intro records
    rw [List.foldl_cons, ih, visited, visited, List.flatMap_cons, List.foldl_append, routeFile]
    split <;> rfl

/-- What is sent to other paths does not matter to a record. -/
theorem get?_foldl_send (ls : List Located) (records : OutputRecords) (path : String) :
    (ls.foldl (send table layout) records).get? path =
      if ls.filter (fun l => layout.pathOf l = path) = [] then records.get? path
      else some ((records.recordAt path).addAll table (ls.filter fun l => layout.pathOf l = path)) := by
  induction ls generalizing records with
  | nil => simp
  | cons l ls ih =>
    rw [List.foldl_cons, ih, recordAt, send, Ledger.get?_put]
    by_cases h : layout.pathOf l = path
    · rw [if_pos h, List.filter_cons_of_pos (by simpa using h), if_neg (List.cons_ne_nil _ _)]
      split
      · next hnil => rw [hnil, h]; rfl
      · rw [h]; rfl
    · rw [if_neg h, List.filter_cons_of_neg (by simpa using h)]
      rfl

/-- **A record is made from what is sent to its path.** -/
theorem get?_route (files : List DeclarationFile) (path : String) :
    (route files table layout).get? path =
      if sentTo table layout files path = [] then none
      else some (OutputRecord.addAll table {} (sentTo table layout files path)) := by
  rw [route_eq_foldl, get?_foldl_send]
  rfl

/-- The record at a path, which is an empty one where nothing is sent. -/
theorem recordAt_route (files : List DeclarationFile) (path : String) :
    (route files table layout).recordAt path = OutputRecord.addAll table {} (sentTo table layout files path) := by
  rw [recordAt, get?_route]
  split
  · next h => rw [h]; rfl
  · rfl

/-- There is a record where something is sent. -/
theorem get?_route_of_sentTo_ne_nil {files : List DeclarationFile} {path : String}
    (h : sentTo table layout files path ≠ []) :
    (route files table layout).get? path = some (OutputRecord.addAll table {} (sentTo table layout files path)) := by
  rw [get?_route, if_neg h]

/-- A record is what is sent to its path. -/
theorem eq_addAll_of_get?_route {files : List DeclarationFile} {path : String} {r : OutputRecord}
    (h : (route files table layout).get? path = some r) :
    r = OutputRecord.addAll table {} (sentTo table layout files path) := by
  rw [get?_route] at h
  split at h
  · cases h
  · exact (Option.some.inj h).symm

/-- The paths of the records are those of what is visited, in the order in which they first come up. -/
theorem keys_route (files : List DeclarationFile) :
    (route files table layout).keys = ((visited table files).map layout.pathOf).eraseDups := by
  have hkeys := Ledger.keys_foldl_put layout.pathOf
    (fun records l => (recordAt records (layout.pathOf l)).add (scopeOf table l) l.declaration)
      (visited table files) .empty
  rw [route_eq_foldl]
  refine hkeys.trans ?_
  simp

theorem nodup_keys_route (files : List DeclarationFile) : (route files table layout).keys.Nodup := by
  rw [route_eq_foldl]
  exact Ledger.nodup_keys_foldl_put layout.pathOf
    (fun records l => (recordAt records (layout.pathOf l)).add (scopeOf table l) l.declaration) _ List.nodup_nil

variable {table layout}

theorem get?_route_of_mem_entries {files : List DeclarationFile} {path : String} {r : OutputRecord}
    (h : (path, r) ∈ (route files table layout).entries) : (route files table layout).get? path = some r :=
  (Ledger.mem_entries_iff (nodup_keys_route table layout files)).mp h

/-- A record belongs to the path of a declaration. -/
theorem exists_visited_of_mem_entries {files : List DeclarationFile} {path : String} {r : OutputRecord}
    (h : (path, r) ∈ (route files table layout).entries) : ∃ l ∈ visited table files, layout.pathOf l = path := by
  have hget := get?_route_of_mem_entries h
  rw [get?_route] at hget
  split at hget
  · cases hget
  · next hsent =>
    obtain ⟨l, hl⟩ := List.exists_mem_of_ne_nil _ hsent
    obtain ⟨hvisited, hpath⟩ := List.mem_filter.mp hl
    exact ⟨l, hvisited, of_decide_eq_true hpath⟩

end OutputRecords

end InteropBindings
