import InteropBindings.Generation
import InteropBindings.Proofs.Output.Independence
import InteropBindings.Proofs.Symbol.Building
import Mathlib.Logic.Basic

/-!
# Order of the files

Files that share nothing may be given in any order:

- a name is looked up in the one file that declares it, so the tables of both orders answer alike
  (`SymbolTable.build_alike`);
- a record asks a table only what a name stands for, so it is the same for tables that answer alike
  (`OutputRecord.addAll_alike`);
- what is sent to a path comes from one file, in the order in which it stands there (`OutputRecords.sentTo_perm`).

`Settings.generate_perm` puts these together.
-/

namespace InteropBindings

/-! ## Files that share nothing -/

/-- Whether not both of two files have a property, platform files apart. -/
def PlatformFilter.NotBoth (platform : PlatformFilter) (P : DeclarationFile → Prop) (f g : DeclarationFile) : Prop :=
  ¬((platform.isPlatform f.path = false ∧ P f) ∧ (platform.isPlatform g.path = false ∧ P g))

instance {platform : PlatformFilter} {P : DeclarationFile → Prop} [DecidablePred P] {f g : DeclarationFile} :
    Decidable (platform.NotBoth P f g) :=
  inferInstanceAs (Decidable ¬((platform.isPlatform f.path = false ∧ P f) ∧ (platform.isPlatform g.path = false ∧ P g)))

theorem PlatformFilter.NotBoth.symm {platform : PlatformFilter} {P : DeclarationFile → Prop} {f g : DeclarationFile}
    (h : platform.NotBoth P f g) : platform.NotBoth P g f :=
  fun hboth => h hboth.symm

/-- Where no two files have a property, the last file with it is any file with it. -/
theorem PlatformFilter.isLast_iff_mem {platform : PlatformFilter} {P : DeclarationFile → Prop}
    {files : List DeclarationFile} (h : files.Pairwise (platform.NotBoth P)) {file : DeclarationFile} :
    platform.IsLast P files file ↔ file ∈ files ∧ platform.isPlatform file.path = false ∧ P file := by
  constructor
  · rintro ⟨before, after, rfl, hp, hP, -⟩
    exact ⟨by simp, hp, hP⟩
  · rintro ⟨hmem, hp, hP⟩
    obtain ⟨before, after, rfl⟩ := List.append_of_mem hmem
    have hafter := (List.pairwise_cons.mp (List.pairwise_append.mp h).2.1).1
    exact ⟨before, after, rfl, hp, hP, fun later hlater hlp hlP => hafter later hlater ⟨⟨hp, hP⟩, hlp, hlP⟩⟩

/-- Two files declare no type of one name when no two of their symbols have one name. -/
theorem DeclarationFile.notBoth_declaresType {platform : PlatformFilter} {f g : DeclarationFile}
    (h : platform.isPlatform f.path = false → platform.isPlatform g.path = false →
      ∀ l ∈ SymbolTable.symbolsOf f, ∀ l' ∈ SymbolTable.symbolsOf g, l.qualifiedName ≠ l'.qualifiedName)
    (name : QualifiedName) : platform.NotBoth (·.DeclaresType name) f g := by
  rintro ⟨⟨hf, hfname⟩, hg, hgname⟩
  obtain ⟨l, hl, hln⟩ := SymbolTable.declaresType_iff.mp hfname
  obtain ⟨l', hl', hln'⟩ := SymbolTable.declaresType_iff.mp hgname
  exact h hf hg l hl l' hl' (hln.trans hln'.symm)

/-- Two files share no output path when no two of their declarations with a binding have one. -/
theorem DeclarationFile.notBoth_bindsAt {platform : PlatformFilter} {layout : OutputLayout} {f g : DeclarationFile}
    (h : platform.isPlatform f.path = false → platform.isPlatform g.path = false →
      ∀ l ∈ OutputRecords.boundOf f, ∀ l' ∈ OutputRecords.boundOf g, layout.pathOf l ≠ layout.pathOf l')
    (path : String) : platform.NotBoth (·.BindsAt layout path) f g := by
  have hbound : ∀ {file : DeclarationFile}, file.BindsAt layout path →
      ∃ l ∈ OutputRecords.boundOf file, layout.pathOf l = path := by
    rintro file ⟨around, decl, hd, hb, hpath⟩
    exact ⟨⟨file.path, around, decl⟩, List.mem_filter.mpr ⟨DeclarationFile.mem_located.mpr ⟨rfl, hd⟩, hb⟩, hpath⟩
  rintro ⟨⟨hf, hfpath⟩, hg, hgpath⟩
  obtain ⟨l, hl, hlp⟩ := hbound hfpath
  obtain ⟨l', hl', hlp'⟩ := hbound hgpath
  exact h hf hg l hl l' hl' (hlp.trans hlp'.symm)

/-- The parts of a list that come from one of its elements alone do not depend on the order. -/
theorem flatMap_eq_of_perm {α β : Type} {part : α → List β} {xs ys : List α} (hperm : xs.Perm ys)
    (h : xs.Pairwise fun x y => part x = [] ∨ part y = []) : xs.flatMap part = ys.flatMap part := by
  induction hperm with
  | nil => rfl
  | cons x _ ih =>
    rw [List.flatMap_cons, List.flatMap_cons, ih (List.pairwise_cons.mp h).2]
  | swap x y zs =>
    have hxy : part y = [] ∨ part x = [] := (List.pairwise_cons.mp h).1 x List.mem_cons_self
    simp only [List.flatMap_cons]
    rcases hxy with hy | hx
    · rw [hy, List.nil_append, List.nil_append]
    · rw [hx, List.nil_append, List.nil_append]
  | trans hxy _ ih₁ ih₂ =>
    rw [ih₁ h, ih₂ ((hxy.pairwise_iff fun hor => hor.symm).mp h)]

/-! ## Tables that answer alike -/

/-- Tables that answer alike: every name has the same file in both, and the same files are platform files. -/
structure SymbolTable.Alike (t t' : SymbolTable) : Prop where
  lookup : ∀ name, t.lookup name = t'.lookup name
  platform : t.platform = t'.platform

/-- **Files that share no type make the same table in any order.** -/
theorem SymbolTable.build_alike {files files' : List DeclarationFile} {platform : PlatformFilter}
    (hperm : files.Perm files') (h : ∀ name, files.Pairwise (platform.NotBoth (·.DeclaresType name))) :
    (build files platform).Alike (build files' platform) where
  platform := by rw [platform_build, platform_build]
  lookup name := by
    have hlast : ∀ file, platform.IsLast (·.DeclaresType name) files file ↔
        platform.IsLast (·.DeclaresType name) files' file := by
      intro file
      have h' := (hperm.pairwise_iff PlatformFilter.NotBoth.symm).mp (h name)
      rw [PlatformFilter.isLast_iff_mem (h name), PlatformFilter.isLast_iff_mem h', hperm.mem_iff]
    apply Option.ext
    intro path
    rw [lookup_build_eq_some_iff, lookup_build_eq_some_iff]
    exact exists_congr fun file => and_congr_left fun _ => hlast file

section

variable {t t' : SymbolTable} (h : t.Alike t')

include h

theorem SymbolTable.Alike.isPlatform (path : Path) : t.isPlatform path = t'.isPlatform path := by
  rw [SymbolTable.isPlatform, SymbolTable.isPlatform, h.platform]

theorem SymbolTable.Alike.contains (name : QualifiedName) : t.contains name = t'.contains name :=
  congrArg Option.isSome (h.lookup name)

variable (file : Path) (around : NamespacePath)

/-- A type has the same name for tables that answer alike. -/
theorem Scope.typeName_alike (type : TypeNode) :
    (⟨t, file, around⟩ : Scope).typeName type = (⟨t', file, around⟩ : Scope).typeName type := by
  induction type with
  | reference name => exact if_congr (by rw [h.contains]; rfl) rfl rfl
  | array element ih => rw [typeName, typeName, ih]
  | keyword k => rfl
  | literal members => rfl
  | other => rfl

theorem Scope.typeName?_alike :
    (⟨t, file, around⟩ : Scope).typeName? = (⟨t', file, around⟩ : Scope).typeName? := by
  funext type
  rw [typeName?, typeName?, funext (Scope.typeName_alike h file around)]

/-- A type needs the same import for tables that answer alike. -/
theorem Scope.import?_alike : (⟨t, file, around⟩ : Scope).import? = (⟨t', file, around⟩ : Scope).import? := by
  funext type
  simp only [import?, Scope.qualify, h.lookup, h.isPlatform]

theorem Scope.imports_alike : (⟨t, file, around⟩ : Scope).imports = (⟨t', file, around⟩ : Scope).imports := by
  funext types
  rw [imports, imports, Scope.import?_alike h]

theorem Scope.param_alike : (⟨t, file, around⟩ : Scope).param = (⟨t', file, around⟩ : Scope).param := by
  funext p
  rw [Scope.param, Scope.param, Scope.typeName?_alike h]

theorem Scope.params_alike : (⟨t, file, around⟩ : Scope).params = (⟨t', file, around⟩ : Scope).params := by
  funext params
  rw [Scope.params, Scope.params, Scope.param_alike h]

theorem Scope.member_alike : (⟨t, file, around⟩ : Scope).member = (⟨t', file, around⟩ : Scope).member := by
  funext m
  cases m with
  | method name params returns =>
    unfold Scope.member
    simp only [Scope.typeName?_alike h, Scope.params_alike h]
  | property name type readonly =>
    unfold Scope.member
    simp only [Scope.typeName?_alike h]

/-- A record takes a declaration in in the same way for tables that answer alike. -/
theorem OutputRecord.add_alike (r : OutputRecord) (decl : Declaration) :
    r.add ⟨t, file, around⟩ decl = r.add ⟨t', file, around⟩ decl := by
  match decl with
  | .classDecl c =>
    have hemit : c.emit ⟨t, file, around⟩ r.signatures = c.emit ⟨t', file, around⟩ r.signatures := by
      simp only [ClassDeclaration.emit, Scope.member_alike h, Scope.imports_alike h]
      rfl
    exact congrArg (fun chunk => { r.push chunk with signatures := c.signatures ⟨t, file, around⟩ r.signatures }) hemit
  | .function f =>
    have hemit : f.emit ⟨t, file, around⟩ r.signatures = f.emit ⟨t', file, around⟩ r.signatures := by
      simp only [FunctionDeclaration.emit, Scope.typeName?_alike h, Scope.params_alike h, Scope.imports_alike h]
      rfl
    exact congrArg (fun chunk => { r.push chunk with signatures := f.signatures ⟨t, file, around⟩ r.signatures }) hemit
  | .alias a =>
    have hemit : a.emit ⟨t, file, around⟩ = a.emit ⟨t', file, around⟩ := by
      simp only [AliasDeclaration.emit, Scope.typeName?_alike h, Scope.imports_alike h]
      rfl
    exact congrArg (r.setAlias (.within around a.name)) hemit
  | .interface _ => rfl

omit file around in
/-- **Records are the same for tables that answer alike.** -/
theorem OutputRecord.addAll_alike (r : OutputRecord) (ls : List Located) : r.addAll t ls = r.addAll t' ls := by
  have hadd : (fun (r : OutputRecord) (l : Located) => r.add (OutputRecords.scopeOf t l) l.declaration) =
      fun r l => r.add (OutputRecords.scopeOf t' l) l.declaration :=
    funext fun r => funext fun l => OutputRecord.add_alike h l.file l.around r l.declaration
  rw [addAll, addAll, hadd]

end

/-! ## Records of both orders -/

namespace OutputRecords

variable {table table' : SymbolTable} {layout : OutputLayout} {path : String} {files files' : List DeclarationFile}

/-- What is sent to a path comes from the files one by one. -/
theorem sentTo_eq_flatMap :
    sentTo table layout files path = files.flatMap fun file => sentTo table layout [file] path := by
  simp only [sentTo, visited, List.filter_flatMap, List.flatMap_cons, List.flatMap_nil, List.append_nil]

/-- Nothing of a file is sent to a path unless the file declares something that belongs there. -/
theorem sentTo_singleton_eq_nil {file : DeclarationFile}
    (h : ¬(table.isPlatform file.path = false ∧ file.BindsAt layout path)) : sentTo table layout [file] path = [] := by
  apply Decidable.byContradiction
  intro hne
  obtain ⟨g, hg, hp, hb⟩ := sentTo_ne_nil_iff.mp hne
  rw [List.mem_singleton.mp hg] at hp hb
  exact h ⟨hp, hb⟩

/-- **Of files that share no output path the same is sent to a path in any order.** -/
theorem sentTo_perm (hperm : files.Perm files')
    (h : files.Pairwise (table.platform.NotBoth (·.BindsAt layout path))) :
    sentTo table layout files path = sentTo table layout files' path := by
  rw [sentTo_eq_flatMap, @sentTo_eq_flatMap table layout path files']
  apply flatMap_eq_of_perm hperm
  apply h.imp
  intro f g hfg
  rcases not_and_or.mp hfg with hf | hg
  · exact .inl (sentTo_singleton_eq_nil hf)
  · exact .inr (sentTo_singleton_eq_nil hg)

theorem sentTo_alike (h : table.Alike table') : sentTo table layout files path = sentTo table' layout files path := by
  simp only [sentTo, visited, h.isPlatform]

theorem keys_perm {records records' : OutputRecords} (hn : records.keys.Nodup) (hn' : records'.keys.Nodup)
    (h : ∀ path, records.get? path = records'.get? path) : records.keys.Perm records'.keys := by
  rw [List.perm_ext_iff_of_nodup hn hn']
  intro path
  rw [← Ledger.contains_iff, ← Ledger.contains_iff, Ledger.contains, Ledger.contains, h]

end OutputRecords

/-- **The order of files that share nothing makes no difference.** When no two files, platform files apart, declare a
type of one name and none have declarations whose bindings belong at one path, then the files in any other order give a
table that answers alike, and the same record at every path; or in both orders a directory is missing. -/
theorem Settings.generate_perm (s : Settings) {files files' : List DeclarationFile} (hne : files ≠ [])
    (hperm : files.Perm files') (htypes : ∀ name, files.Pairwise (s.platform.NotBoth (·.DeclaresType name)))
    (hpaths : ∀ input output path, s.directories = .ok (input, output) →
      files.Pairwise (s.platform.NotBoth (·.BindsAt ⟨input, output⟩ path))) :
    (∃ fault, s.directories = .error fault ∧ s.generate files = .error fault ∧ s.generate files' = .error fault) ∨
    ∃ g g', s.generate files = .ok g ∧ s.generate files' = .ok g' ∧ g.symbols.Alike g'.symbols ∧
      g.records.keys.Perm g'.records.keys ∧ ∀ path, g.records.get? path = g'.records.get? path := by
  cases hdirectories : s.directories with
  | error fault =>
    refine .inl ⟨fault, rfl, ?_, ?_⟩
    all_goals rw [generate, hdirectories]; rfl
  | ok directories =>
    obtain ⟨input, output⟩ := directories
    have hgenerate : ∀ fs : List DeclarationFile, fs ≠ [] → s.generate fs =
        .ok ⟨.build fs s.platform, OutputRecords.route fs (.build fs s.platform) ⟨input, output⟩⟩ := by
      intro fs hfs
      rw [generate, hdirectories]
      simp only [List.isEmpty_iff, hfs, bind, Except.bind]
      rfl
    have halike := SymbolTable.build_alike hperm htypes
    have hget : ∀ path,
        (OutputRecords.route files (.build files s.platform) ⟨input, output⟩).get? path =
          (OutputRecords.route files' (.build files' s.platform) ⟨input, output⟩).get? path := by
      intro path
      have hsent : OutputRecords.sentTo (.build files s.platform) ⟨input, output⟩ files path =
          OutputRecords.sentTo (.build files' s.platform) ⟨input, output⟩ files' path := by
        rw [OutputRecords.sentTo_alike halike]
        apply OutputRecords.sentTo_perm hperm
        rw [SymbolTable.platform_build]
        exact hpaths input output path hdirectories
      rw [OutputRecords.get?_route, OutputRecords.get?_route, hsent, OutputRecord.addAll_alike halike]
    refine .inr ⟨_, _, hgenerate files hne, hgenerate files'
      (fun he => hne (by simpa [he] using hperm)), halike, ?_, hget⟩
    exact OutputRecords.keys_perm (OutputRecords.nodup_keys_route _ _ _) (OutputRecords.nodup_keys_route _ _ _) hget

/-- A file that declares a class in two parts, a platform file with a class of the same name, and a file that refers to
the class. -/
def zoomFiles : List DeclarationFile :=
  [⟨⟨"in/map.d.ts"⟩, [.namespaceItem "ol" [.declaration (.classDecl ⟨"Map", [.method "get" [] none]⟩),
     .declaration (.alias ⟨"Size", .keyword .number⟩), .declaration (.classDecl ⟨"Map", [.method "set" [] none]⟩)]]⟩,
   ⟨⟨"in/lib.dom.d.ts"⟩, [.namespaceItem "ol" [.declaration (.classDecl ⟨"Map", []⟩)]]⟩,
   ⟨⟨"in/zoom.d.ts"⟩, [.namespaceItem "ol" [.declaration (.interface "Options"),
     .declaration (.function ⟨"zoom", [⟨"map", some (.reference "Map"), false⟩], none⟩)]]⟩]

/-- The files in reverse order give the same records. -/
theorem Settings.generate_perm_reverse :
    let s := Settings.between ⟨"in"⟩ ⟨"out"⟩
    ∃ g g', s.generate zoomFiles = .ok g ∧ s.generate zoomFiles.reverse = .ok g' ∧ g.symbols.Alike g'.symbols ∧
      g.records.keys.Perm g'.records.keys ∧ ∀ path, g.records.get? path = g'.records.get? path := by
  intro s
  have htypes : ∀ name, zoomFiles.Pairwise (s.platform.NotBoth (·.DeclaresType name)) := by
    intro name
    exact List.Pairwise.imp (fun h => DeclarationFile.notBoth_declaresType h name) (by decide : zoomFiles.Pairwise _)
  have hpaths : ∀ input output path, s.directories = .ok (input, output) →
      zoomFiles.Pairwise (s.platform.NotBoth (·.BindsAt ⟨input, output⟩ path)) := by
    rintro input output path ⟨⟩
    exact List.Pairwise.imp (fun h => DeclarationFile.notBoth_bindsAt h path) (by decide : zoomFiles.Pairwise _)
  rcases s.generate_perm (List.cons_ne_nil _ _) (List.reverse_perm zoomFiles).symm htypes hpaths with
    ⟨fault, hfault, -⟩ | hsame
  · cases hfault
  · exact hsame

end InteropBindings
