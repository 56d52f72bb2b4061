import InteropBindings.Proofs.Declaration.Nesting
import InteropBindings.Proofs.Ledger
import InteropBindings.Symbol.Table

/-!
# What a symbol table holds

The table is filled by one write after the other. What it holds in the end is said here without these writes:

- the file of a name is the last file, platform files apart, that declares a type of that name at any depth
  (`lookup_build_eq_some_iff`, `lookup_build_eq_none_iff`);
- the names come in the order in which they are first declared (`keys_build`).
-/

namespace InteropBindings

/-- Whether a file declares a class, an interface or a type alias of a qualified name, at any depth. -/
def DeclarationFile.DeclaresType (file : DeclarationFile) (name : QualifiedName) : Prop :=
  ∃ around decl, file.Declares around decl ∧ decl.isType = true ∧ .within around decl.name = name

/-- A file is the last one with a property, platform files apart. -/
def PlatformFilter.IsLast (platform : PlatformFilter) (P : DeclarationFile → Prop) (files : List DeclarationFile)
    (file : DeclarationFile) : Prop :=
  ∃ before after, files = before ++ file :: after ∧ platform.isPlatform file.path = false ∧ P file ∧
    ∀ later ∈ after, platform.isPlatform later.path = false → ¬P later

/-- No file has a property, platform files apart. -/
def PlatformFilter.HasNone (platform : PlatformFilter) (P : DeclarationFile → Prop) (files : List DeclarationFile) :
    Prop :=
  ∀ file ∈ files, platform.isPlatform file.path = false → ¬P file

instance {platform : PlatformFilter} {P : DeclarationFile → Prop} [DecidablePred P] {files : List DeclarationFile} :
    Decidable (platform.HasNone P files) :=
  inferInstanceAs (Decidable (∀ file ∈ files, platform.isPlatform file.path = false → ¬P file))

/-- The last file is among the further files, or it is the first one and no further file has the property. -/
theorem PlatformFilter.isLast_cons {platform : PlatformFilter} {P : DeclarationFile → Prop} {file g : DeclarationFile}
    {files : List DeclarationFile} :
    platform.IsLast P (file :: files) g ↔ platform.IsLast P files g ∨
      (g = file ∧ platform.isPlatform file.path = false ∧ P file ∧ platform.HasNone P files) := by
  constructor
  · rintro ⟨before, after, he, hp, hP, hlater⟩
    cases before with
    | nil => cases he; exact .inr ⟨rfl, hp, hP, hlater⟩
    | cons _ before => cases he; exact .inl ⟨before, after, rfl, hp, hP, hlater⟩
  · rintro (⟨before, after, rfl, h⟩ | ⟨rfl, hp, hP, hlater⟩)
    · exact ⟨file :: before, after, rfl, h⟩
    · exact ⟨[], files, rfl, hp, hP, hlater⟩

theorem PlatformFilter.hasNone_cons {platform : PlatformFilter} {P : DeclarationFile → Prop} {file : DeclarationFile}
    {files : List DeclarationFile} :
    platform.HasNone P (file :: files) ↔
      (platform.isPlatform file.path = false → ¬P file) ∧ platform.HasNone P files := by
  simp [PlatformFilter.HasNone]

theorem PlatformFilter.IsLast.not_hasNone {platform : PlatformFilter} {P : DeclarationFile → Prop}
    {file : DeclarationFile} {files : List DeclarationFile} (h : platform.IsLast P files file) :
    ¬platform.HasNone P files := by
  obtain ⟨before, after, rfl, hp, hP, _⟩ := h
  exact fun hn => hn file (by simp) hp hP

/-- Either some file is the last one, or there is none. -/
theorem PlatformFilter.exists_isLast_or_hasNone (platform : PlatformFilter) (P : DeclarationFile → Prop)
    (files : List DeclarationFile) : (∃ file, platform.IsLast P files file) ∨ platform.HasNone P files := by
  induction files with
  | nil => exact .inr fun _ h => by cases h
  | cons file files ih =>
    rw [hasNone_cons]
    rcases ih with ⟨g, hg⟩ | hn
    · exact .inl ⟨g, isLast_cons.mpr (.inl hg)⟩
    · by_cases h : platform.isPlatform file.path = false ∧ P file
      · exact .inl ⟨file, isLast_cons.mpr (.inr ⟨rfl, h.1, h.2, hn⟩)⟩
      · exact .inr ⟨fun hp hP => h ⟨hp, hP⟩, hn⟩

namespace SymbolTable

theorem mem_symbolsOf {file : DeclarationFile} {l : Located} :
    l ∈ symbolsOf file ↔ l.file = file.path ∧ file.Declares l.around l.declaration ∧ l.declaration.isType = true := by
  rw [symbolsOf, List.mem_filter, DeclarationFile.mem_located, and_assoc]

/-- A file declares a type of a name exactly when one of its symbols has that name. -/
theorem declaresType_iff {file : DeclarationFile} {name : QualifiedName} :
    file.DeclaresType name ↔ ∃ l ∈ symbolsOf file, l.qualifiedName = name := by
  constructor
  · rintro ⟨around, decl, hd, ht, hn⟩
    exact ⟨⟨file.path, around, decl⟩, mem_symbolsOf.mpr ⟨rfl, hd, ht⟩, hn⟩
  · rintro ⟨l, hl, hn⟩
    obtain ⟨_, hd, ht⟩ := mem_symbolsOf.mp hl
    exact ⟨l.around, l.declaration, hd, ht, hn⟩

/-! ## One file -/

theorem foldl_enter (ls : List Located) (t : SymbolTable) :
    ls.foldl enter t = { t with files := ls.foldl (fun files l => files.put l.qualifiedName l.file) t.files } := by
  induction ls generalizing t with
  | nil => rfl
  | cons l ls ih => rw [List.foldl_cons, ih]; rfl

theorem platform_scan (t : SymbolTable) (file : DeclarationFile) : (t.scan file).platform = t.platform := by
  rw [scan]
  split
  · rfl
  · rw [foldl_enter]

/-- What a scanned file declares is looked up there. -/
theorem lookup_scan_of_declaresType {t : SymbolTable} {file : DeclarationFile} {name : QualifiedName}
    (hp : t.platform.isPlatform file.path = false) (hd : file.DeclaresType name) :
    (t.scan file).lookup name = some file.path := by
  have hfile : ∀ l ∈ symbolsOf file, l.file = file.path := fun l hl => (mem_symbolsOf.mp hl).1
  rw [scan, isPlatform, hp, if_neg (by simp), foldl_enter]
  exact Ledger.get?_foldl_put_of_forall _ hfile (declaresType_iff.mp hd)

/-- All else is looked up as before. -/
theorem lookup_scan_of_not {t : SymbolTable} {file : DeclarationFile} {name : QualifiedName}
    (h : t.platform.isPlatform file.path = false → ¬file.DeclaresType name) :
    (t.scan file).lookup name = t.lookup name := by
  rw [scan, isPlatform]
  split
  · rfl
  · next hp =>
    rw [foldl_enter, lookup]
    refine Ledger.get?_foldl_put_of_ne _ _ fun l hl he => ?_
    exact h (by simpa using hp) (declaresType_iff.mpr ⟨l, hl, he⟩)

/-! ## Many files -/

/-- What is looked up after scanning further files. -/
theorem lookup_foldl_scan {files : List DeclarationFile} {t : SymbolTable} {name : QualifiedName} {path : Path} :
    (files.foldl scan t).lookup name = some path ↔
      (∃ file, t.platform.IsLast (·.DeclaresType name) files file ∧ file.path = path) ∨
        (t.platform.HasNone (·.DeclaresType name) files ∧ t.lookup name = some path) := by
  induction files generalizing t with
  | nil => simp [PlatformFilter.IsLast, PlatformFilter.HasNone]
  | cons file files ih =>
    rw [List.foldl_cons, ih, platform_scan]
    simp only [PlatformFilter.isLast_cons, PlatformFilter.hasNone_cons]
    by_cases h : t.platform.isPlatform file.path = false ∧ file.DeclaresType name
    · rw [lookup_scan_of_declaresType h.1 h.2]
      constructor
      · rintro (⟨g, hg, rfl⟩ | ⟨hnone, he⟩)
        · exact .inl ⟨g, .inl hg, rfl⟩
        · exact .inl ⟨file, .inr ⟨rfl, h.1, h.2, hnone⟩, Option.some.inj he⟩
      · rintro (⟨g, hg | ⟨rfl, _, _, hnone⟩, rfl⟩ | ⟨⟨hn, _⟩, _⟩)
        · exact .inl ⟨g, hg, rfl⟩
        · exact .inr ⟨hnone, rfl⟩
        · exact absurd h.2 (hn h.1)
    · have hn : t.platform.isPlatform file.path = false → ¬file.DeclaresType name := fun hp hd => h ⟨hp, hd⟩
      rw [lookup_scan_of_not hn]
      constructor
      · rintro (⟨g, hg, rfl⟩ | ⟨hnone, he⟩)
        · exact .inl ⟨g, .inl hg, rfl⟩
        · exact .inr ⟨⟨hn, hnone⟩, he⟩
      · rintro (⟨g, hg | ⟨_, hp, hd, _⟩, rfl⟩ | ⟨⟨_, hnone⟩, he⟩)
        · exact .inl ⟨g, hg, rfl⟩
        · exact absurd hd (hn hp)
        · exact .inr ⟨hnone, he⟩

variable (files : List DeclarationFile) (platform : PlatformFilter)

/-- The file of a name is the last one that declares a type of it. -/
theorem lookup_build_eq_some_iff {name : QualifiedName} {path : Path} :
    (build files platform).lookup name = some path ↔
      ∃ file, platform.IsLast (·.DeclaresType name) files file ∧ file.path = path := by
  rw [build, lookup_foldl_scan]
  simp [lookup, Ledger.get?, Ledger.empty, Ledger.lookup]

/-- A name has no file exactly when no file declares a type of it. -/
theorem lookup_build_eq_none_iff {name : QualifiedName} :
    (build files platform).lookup name = none ↔ platform.HasNone (·.DeclaresType name) files := by
  constructor
  · intro h
    rcases platform.exists_isLast_or_hasNone (·.DeclaresType name) files with ⟨file, hf⟩ | hn
    · rw [(lookup_build_eq_some_iff files platform).mpr ⟨file, hf, rfl⟩] at h
      cases h
    · exact hn
  · intro hn
    cases h : (build files platform).lookup name with
    | none => rfl
    | some path =>
      obtain ⟨file, hf, _⟩ := (lookup_build_eq_some_iff files platform).mp h
      exact absurd hn hf.not_hasNone

theorem platform_build : (build files platform).platform = platform := by
  suffices h : ∀ t : SymbolTable, (files.foldl scan t).platform = t.platform from h _
  induction files with
  | nil => exact fun _ => rfl
  | cons file files ih => exact fun t => by rw [List.foldl_cons, ih, platform_scan]

/-! ## Order -/

/-- The symbols of some files, platform files apart, in the order in which they are declared. -/
def scanned : List Located := (files.filter fun file => !platform.isPlatform file.path).flatMap symbolsOf

/-- Scanning files writes one entry for each of their symbols. -/
theorem files_foldl_scan (t : SymbolTable) :
    (files.foldl scan t).files =
      (scanned files t.platform).foldl (fun files l => files.put l.qualifiedName l.file) t.files := by
  induction files generalizing t with
  | nil => rfl
  | cons file files ih =>
    rw [List.foldl_cons, ih, platform_scan, scan, isPlatform, scanned, scanned]
    by_cases hp : t.platform.isPlatform file.path = true
    · simp [hp]
    · simp [hp, foldl_enter]

/-- The names of a table are listed in the order in which they are first declared. -/
theorem keys_build :
    (build files platform).files.keys = ((scanned files platform).map Located.qualifiedName).eraseDups := by
  rw [build, files_foldl_scan, Ledger.keys_foldl_put]
  simp

theorem nodup_keys_build : (build files platform).files.keys.Nodup := by
  rw [build, files_foldl_scan]
  exact Ledger.nodup_keys_foldl_put _ _ _ List.nodup_nil

/-- **The table of some files**: the value of a name is the path of the last file that declares a type of it, platform
files apart; the names are listed once each, with their values, in the order of first declaration. -/
theorem build_last_value_first_place :
    (∀ name path, (build files platform).lookup name = some path ↔
      ∃ file, platform.IsLast (·.DeclaresType name) files file ∧ file.path = path) ∧
    (∀ name, (build files platform).lookup name = none ↔ platform.HasNone (·.DeclaresType name) files) ∧
    (build files platform).files.keys = ((scanned files platform).map Located.qualifiedName).eraseDups ∧
    (build files platform).files.keys.Nodup ∧
    (∀ name path, (name, path) ∈ (build files platform).files.entries ↔
      (build files platform).lookup name = some path) ∧
    (build files platform).size = ((scanned files platform).map Located.qualifiedName).eraseDups.length := by
  refine ⟨fun _ _ => lookup_build_eq_some_iff files platform, fun _ => lookup_build_eq_none_iff files platform,
    keys_build files platform, nodup_keys_build files platform, fun name path => ?_, ?_⟩
  · exact Ledger.mem_entries_iff (nodup_keys_build files platform)
  · rw [size, ← Ledger.length_keys, keys_build]

end SymbolTable

end InteropBindings
