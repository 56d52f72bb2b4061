import InteropBindings.Proofs.Disk.Reordering
import InteropBindings.Proofs.Output.Separation
import InteropBindings.Proofs.Sources

/-!
# What is discovered

In a plain tree the files that a run starts from are known by their own names. They are the files at any depth below the
input directory that end like declaration files and start like no platform file, whatever the directories on the way are
called (`Disk.HasDeclarationFile`).

- The files below a directory can be listed in many orders (`Disk.Enumerates`). From each the same is chosen: the
  declaration files, sorted by path, or a fault when there are none (`Disk.IsTree.exists_chosen_of_enumerates`).
- A search is one of these lists, if no directory has a path that is too long (`LoggedDisk.enumerates_found`).

So it makes no difference in which order directories list their entries (`discover_exact`). A file whose own name spells
no string is left out, however its bytes end (`not_discover_rawName`).
-/

namespace InteropBindings

open Disk InteropBindings.Path
open RawText (ofString)

variable {platform : PlatformFilter} {dir : Path} {place : Place}

/-! ## Names of files -/

theorem PlatformFilter.isPlatform_join {name : RawText} (h : IsName name) (platform : PlatformFilter) :
    platform.isPlatform (dir.join name) =
      name.string?.any fun n => platform.starts.any fun start => Text.beginsWith start n := by
  rw [isPlatform, fileName_eq_some_iff.mpr ⟨_, h.components_join dir⟩, Option.bind_some]

/-- All names on the way to an entry are names. -/
theorem Disk.IsTree.isName_of_entryAt {d : Disk} (h : d.IsTree) {names : List RawText} {e : Entry}
    (hentry : d.entryAt (place ++ names) = some e) : ∀ n ∈ names, IsName n := by
  induction names using List.reverseRecOn generalizing e with
  | nil => simp
  | append_singleton names name ih =>
    rw [← List.append_assoc] at hentry
    obtain ⟨hname, haround⟩ := h.of_entryAt hentry
    intro n hn
    rcases List.mem_append.mp hn with hn | hn
    · exact ih haround n hn
    · exact List.mem_singleton.mp hn ▸ hname.1

namespace Disk

variable {d : Disk} {found : List Found}

/-- A file at any depth below a directory, whose name spells a string that ends like the name of a declaration file and
starts like that of no platform file. The names of the directories on the way may be any bytes. -/
def HasDeclarationFile (d : Disk) (platform : PlatformFilter) (dir : Ancestor) (p : Path) : Prop :=
  ∃ around, ∃ name : String, ∃ c, d.entryAt (dir.place ++ (around ++ [ofString name])) = some (.file c) ∧
    p = (around ++ [ofString name]).foldl join dir.path ∧
    Text.endsWith ".d.ts" name = true ∧ ∀ start ∈ platform.starts, Text.beginsWith start name = false

/-- Declaration files are told apart by where their bindings go, if no name holds a backslash or is the ending alone. -/
theorem HasDeclarationFile.isSourceBelow (htree : d.IsTree) {layout : OutputLayout} {p : Path}
    (h : d.HasDeclarationFile platform ⟨layout.inputRoot, place⟩ p)
    (hback : ∀ names c, d.entryAt (place ++ names) = some (.file c) → ∀ n ∈ names, backslash ∉ n.toList)
    (hlonger : p.fileName ≠ some (ofString ".d.ts")) : layout.IsSourceBelow p := by
  obtain ⟨around, name, c, hentry, rfl, hends, -⟩ := h
  obtain ⟨stem, rfl⟩ := Text.exists_append_of_endsWith hends
  rw [RawText.ofString_append] at hentry hlonger ⊢
  have hnames := htree.isName_of_entryAt hentry
  refine ⟨around, stem, ?_, fun n hn => ⟨hnames n hn, hback _ c hentry n hn⟩, rfl⟩
  intro hempty
  have hlast : IsName (stem ++ ".d.ts") := hnames _ (by simp)
  refine hlonger (fileName_eq_some_iff.mpr ⟨(around.foldl join layout.inputRoot).components, ?_⟩)
  rw [List.foldl_append, List.foldl_cons, List.foldl_nil, hlast.components_join, hempty, RawText.empty_append]

/-! ## Listing what lies below a directory -/

/-- The files at any depth below a directory, each once, in any order. -/
structure Enumerates (d : Disk) (dir : Ancestor) (found : List Found) : Prop where
  nodup : found.Nodup
  mem_iff : ∀ f, f ∈ found ↔
    ∃ names c, names ≠ [] ∧ d.entryAt (dir.place ++ names) = some (.file c) ∧ f = .file (names.foldl join dir.path)

/-- Whether a file stands at a place. -/
def holdsFile (d : Disk) (key : Place) : Bool :=
  match d.entryAt key with
  | some (.file _) => true
  | _ => false

theorem holdsFile_iff {key : Place} : d.holdsFile key = true ↔ ∃ c, d.entryAt key = some (.file c) := by
  unfold holdsFile
  split
  · next c hentry => exact iff_of_true rfl ⟨c, hentry⟩
  · next hentry =>
    refine iff_of_false Bool.false_ne_true ?_
    rintro ⟨c, hc⟩
    exact hentry c hc

/-- The places below a directory at which files stand, in the order of the tree. -/
def filePlaces (d : Disk) (directory : Place) : List Place :=
  d.entries.keys.filter fun key => directory.isPrefixOf key && d.holdsFile key

/-- They are the places of all files below the directory. -/
theorem mem_filePlaces_iff (hplace : d.entryAt place = some .directory) {key : Place} :
    key ∈ d.filePlaces place ↔ ∃ names c, names ≠ [] ∧ d.entryAt (place ++ names) = some (.file c) ∧
      key = place ++ names := by
  rw [filePlaces, List.mem_filter, Bool.and_eq_true, List.isPrefixOf_iff_prefix, holdsFile_iff]
  constructor
  · rintro ⟨_, ⟨names, rfl⟩, c, hfile⟩
    refine ⟨names, c, ?_, hfile, rfl⟩
    rintro rfl
    rw [List.append_nil, hplace] at hfile
    cases hfile
  · rintro ⟨names, c, hne, hfile, rfl⟩
    have hkey := (isSome_entryAt_iff (List.append_ne_nil_of_right_ne_nil place hne)).mp (Option.isSome_of_eq_some hfile)
    exact ⟨hkey, List.prefix_append _ _, c, hfile⟩

/-- The files below a directory, in the order of the tree. -/
def filesBelow (d : Disk) (dir : Ancestor) : List Found :=
  (d.filePlaces dir.place).map fun key => .file ((key.drop dir.place.length).foldl join dir.path)

/-- The files below a directory can be listed, in the order of the tree to begin with. -/
theorem IsTree.enumerates_filesBelow (h : d.IsTree) {dir : Ancestor} (hdir : d.entryAt dir.place = some .directory) :
    d.Enumerates dir (d.filesBelow dir) := by
  constructor
  · refine List.Nodup.map_on (fun key hkey key' hkey' hsame => ?_) (h.nodup.filter _)
    obtain ⟨names, c, -, hfile, rfl⟩ := (mem_filePlaces_iff hdir).mp hkey
    obtain ⟨names', c', -, hfile', rfl⟩ := (mem_filePlaces_iff hdir).mp hkey'
    rw [List.drop_left, List.drop_left, Found.file.injEq] at hsame
    have hnames := foldl_join_inj (h.isName_of_entryAt hfile) (h.isName_of_entryAt hfile')
      (beq_iff_eq.mpr (congrArg components hsame))
    rw [hnames]
  · intro f
    rw [filesBelow, List.mem_map]
    constructor
    · rintro ⟨key, hkey, rfl⟩
      obtain ⟨names, c, hne, hfile, rfl⟩ := (mem_filePlaces_iff hdir).mp hkey
      exact ⟨names, c, hne, hfile, by rw [List.drop_left]⟩
    · rintro ⟨names, c, hne, hfile, rfl⟩
      exact ⟨_, (mem_filePlaces_iff hdir).mpr ⟨names, c, hne, hfile, rfl⟩, by rw [List.drop_left]⟩

/-- Different names lead to different files. -/
theorem Enumerates.pairwise (h : d.IsTree) {dir : Ancestor} (henumerates : d.Enumerates dir found) :
    (found.filterMap (Found.kept? platform)).Pairwise fun p q => p.components ≠ q.components := by
  refine List.pairwise_filterMap.mpr (henumerates.nodup.imp_of_mem fun {f g} hf hg hne p hp q hq hsame => hne ?_)
  obtain ⟨names, c, -, hentry, rfl⟩ := (henumerates.mem_iff f).mp hf
  obtain ⟨names', c', -, hentry', rfl⟩ := (henumerates.mem_iff g).mp hg
  rw [← Found.file.inj (Found.kept?_eq_some_iff.mp hp).1, ← Found.file.inj (Found.kept?_eq_some_iff.mp hq).1] at hsame
  rw [foldl_join_inj (h.isName_of_entryAt hentry) (h.isName_of_entryAt hentry') (beq_iff_eq.mpr hsame)]

/-- **The files that are kept** of a list are the declaration files. -/
theorem Enumerates.mem_iff_hasDeclarationFile (h : d.IsTree) {dir : Ancestor} (henumerates : d.Enumerates dir found)
    {p : Path} :
    p ∈ found.filterMap (Found.kept? platform) ↔ d.HasDeclarationFile platform dir p := by
  have hkept : ∀ {around name}, IsName name → ((isDeclarationFile ((around ++ [name]).foldl join dir.path) = true ∧
      platform.isPlatform ((around ++ [name]).foldl join dir.path) = false) ↔
        ∃ s : String, name = s ∧ Text.endsWith ".d.ts" s = true ∧
          ∀ start ∈ platform.starts, Text.beginsWith start s = false) := by
    intro around name hname
    rw [List.foldl_append, List.foldl_cons, List.foldl_nil, isDeclarationFile_join hname,
      PlatformFilter.isPlatform_join hname]
    simp only [← RawText.string?_eq_some_iff]
    cases name.string? with
    | none => simp
    | some s => simp [List.any_eq_false]
  simp only [List.mem_filterMap, Found.kept?_eq_some_iff]
  constructor
  · rintro ⟨_, hmem, rfl, hp⟩
    obtain ⟨names, c, hne, hentry, hpath⟩ := (henumerates.mem_iff _).mp hmem
    obtain ⟨around, name, rfl⟩ := (List.eq_nil_or_concat' names).resolve_left hne
    obtain rfl := Found.file.inj hpath
    have hname : IsName name := h.isName_of_entryAt hentry name (by simp)
    obtain ⟨s, rfl, hs⟩ := (hkept hname).mp hp
    exact ⟨around, s, c, hentry, rfl, hs⟩
  · rintro ⟨around, s, c, hentry, rfl, hs⟩
    have hname : IsName (ofString s) := h.isName_of_entryAt hentry _ (by simp)
    exact ⟨_, (henumerates.mem_iff _).mpr ⟨_, c, by simp, hentry, rfl⟩, rfl, (hkept hname).mpr ⟨s, rfl, hs⟩⟩

end Disk

/-! ## Choosing -/

/-- What is returned when some paths have been chosen below a directory. -/
def pathsOrFault (dir : Path) (paths : List Path) : Except Fault (List Path) :=
  if paths = [] then .error (.noDeclarationFiles dir) else .ok paths

/-- What is chosen of what was met below a directory. -/
def chosen (platform : PlatformFilter) (dir : Path) (found : List Found) : Except Fault (List Path) :=
  (declarationFiles platform found).bind fun paths => pathsOrFault dir (sortedPaths paths)

theorem sortedPaths_eq_nil_iff {paths : List Path} : sortedPaths paths = [] ↔ paths = [] := by
  rw [← List.length_eq_zero_iff, sortedPaths, List.length_mergeSort, List.length_eq_zero_iff]

/-- **Discovery** chooses of what a search meets. -/
theorem result_discover_eq_chosen {s : LoggedDisk} (hdir : s.disk.resolve true dir = .ok (.entry place .directory)) :
    ((discover dir platform : Job (StateM LoggedDisk) (List Path)).run.run s).1 =
      chosen platform dir (s.found s.disk.depthLimit ⟨dir, place⟩ []) := by
  rw [result_discover hdir, chosen]
  cases declarationFiles platform (s.found s.disk.depthLimit ⟨dir, place⟩ []) with
  | error fault => rfl
  | ok files =>
    change _ = pathsOrFault dir (sortedPaths files)
    rw [pathsOrFault]
    cases files with
    | nil => rw [if_pos (sortedPaths_eq_nil_iff.mpr rfl)]
    | cons file files => rw [if_neg (mt sortedPaths_eq_nil_iff.mp (List.cons_ne_nil _ _))]

/-- **What is chosen** are the declaration files, sorted by path, in whichever order everything is listed. -/
theorem Disk.IsTree.exists_chosen_of_enumerates {d : Disk} (h : d.IsTree) (hentry : d.entryAt place = some .directory)
    (platform : PlatformFilter) (dir : Path) :
    ∃ paths : List Path, paths.Pairwise (fun p q => p.order q = .lt) ∧
      (∀ p, p ∈ paths ↔ d.HasDeclarationFile platform ⟨dir, place⟩ p) ∧
      ∀ found, d.Enumerates ⟨dir, place⟩ found → chosen platform dir found = pathsOrFault dir paths := by
  have hlisted : ∀ {found}, d.Enumerates ⟨dir, place⟩ found →
      (sortedPaths (found.filterMap (Found.kept? platform))).Pairwise (fun p q => p.order q = .lt) ∧
        ∀ p, p ∈ sortedPaths (found.filterMap (Found.kept? platform)) ↔
          d.HasDeclarationFile platform ⟨dir, place⟩ p := by
    intro found henumerates
    refine ⟨pairwise_sortedPaths (henumerates.pairwise h), fun p => ?_⟩
    rw [sortedPaths, List.mem_mergeSort, henumerates.mem_iff_hasDeclarationFile h]
  have hbelow : d.Enumerates ⟨dir, place⟩ (d.filesBelow ⟨dir, place⟩) := h.enumerates_filesBelow hentry
  obtain ⟨hsorted, hmem⟩ := hlisted hbelow
  refine ⟨_, hsorted, hmem, fun found henumerates => ?_⟩
  obtain ⟨hsorted', hmem'⟩ := hlisted henumerates
  have hsame := eq_of_pairwise_order id hsorted' hsorted fun p => (hmem' p).trans (hmem p).symm
  have hfaultless : IsFaultless found := by
    intro fault hfault
    obtain ⟨_, _, _, _, hfile⟩ := (henumerates.mem_iff _).mp hfault
    cases hfile
  rw [chosen, declarationFiles_eq_ok_iff.mpr ⟨hfaultless, rfl⟩]
  exact congrArg (pathsOrFault dir) hsame

/-! ## Searching -/

/-- **A search lists all files below a directory**, if no directory there has a path that is too long. -/
theorem LoggedDisk.enumerates_found {s : LoggedDisk} (h : s.disk.IsPlain)
    (hdir : s.disk.resolve true dir = .ok (.entry place .directory)) (hwalkable : s.disk.Walkable place dir) :
    s.disk.Enumerates ⟨dir, place⟩ (s.found s.disk.depthLimit ⟨dir, place⟩ []) := by
  have hdeep := h.isDeepest place
  have hwalk : s.found s.disk.depthLimit ⟨dir, place⟩ [] = s.disk.walk s.disk.depthLimit place dir :=
    found_eq_walk h hdir
  have hfaultless := (faultless_walk_iff h.toIsTree hdeep).mpr hwalkable
  rw [← hwalk] at hfaultless
  constructor
  · refine (pairwise_found h.toIsTree).imp_of_mem fun {f g} hf _ hapart hsame => ?_
    cases f with
    | fault fault => exact hfaultless fault hf
    | file p => exact hapart p p rfl hsame.symm rfl
  · intro f
    cases f with
    | fault fault =>
      refine iff_of_false (hfaultless fault) ?_
      rintro ⟨_, _, _, _, hfile⟩
      cases hfile
    | file p =>
      rw [hwalk, mem_walk_iff h.toIsTree hdeep hwalkable]
      simp only [Found.file.injEq]

/-- **Discovery is exact.** Below an existing directory of a tree without links there is one list of paths, strictly
sorted, of the files at any depth whose names end with `.d.ts` and start like no platform file. Whichever way all files
below the directory are listed, each once, these paths are chosen, or there is a fault that there are none. Discovery
returns that, in whichever order directories list their entries, as long as no directory below has a path that is too
long to be listed; with such a directory it stops there. -/
theorem discover_exact {s : LoggedDisk} (hplain : s.disk.IsPlain)
    (hdir : s.disk.resolve true dir = .ok (.entry place .directory)) (platform : PlatformFilter) :
    ∃ paths : List Path, paths.Pairwise (fun p q => p.order q = .lt) ∧
      (∀ p, p ∈ paths ↔ s.disk.HasDeclarationFile platform ⟨dir, place⟩ p) ∧
      (∀ found, s.disk.Enumerates ⟨dir, place⟩ found → chosen platform dir found = pathsOrFault dir paths) ∧
      ∀ t : LoggedDisk, s.disk.Reorders t.disk →
        (s.disk.Walkable place dir →
          s.disk.Enumerates ⟨dir, place⟩ (t.found t.disk.depthLimit ⟨dir, place⟩ []) ∧
          ((discover dir platform : Job (StateM LoggedDisk) (List Path)).run.run t).1 = pathsOrFault dir paths) ∧
        (¬ s.disk.Walkable place dir → ∃ names t', s.disk.entryAt (place ++ names) = some .directory ∧
          4096 ≤ (names.foldl join dir).text.size ∧
          (discover dir platform).Fails t (.brokenEntry (names.foldl join dir) .nameTooLong) t' ∧
            t'.disk = t.disk) := by
  have hentry := hplain.entryAt_of_resolve hdir
  obtain ⟨paths, hsorted, hmem, hchosen⟩ := hplain.exists_chosen_of_enumerates hentry platform dir
  refine ⟨paths, hsorted, hmem, hchosen, fun t hreorders => ?_⟩
  have hsame := hreorders.entryAt_eq hplain.nodup
  have hplain' := hreorders.isPlain hplain
  have hdir' := (hreorders.resolve_eq hplain.nodup true dir).trans hdir
  have hwalkable : t.disk.Walkable place dir ↔ s.disk.Walkable place dir := by simp only [Walkable, hsame]
  constructor
  · intro hshort
    have henumerates := LoggedDisk.enumerates_found hplain' hdir' (hwalkable.mpr hshort)
    have henumerates' : s.disk.Enumerates ⟨dir, place⟩ (t.found t.disk.depthLimit ⟨dir, place⟩ []) :=
      ⟨henumerates.nodup, by simpa only [hsame] using henumerates.mem_iff⟩
    exact ⟨henumerates', (result_discover_eq_chosen hdir').trans (hchosen _ henumerates')⟩
  · intro hlong
    simpa only [hsame] using exists_fails_discover hplain' hdir' (mt hwalkable.mp hlong)

/-- The ending of a declaration file behind a byte that spells no character. -/
def rawName : RawText := .ofList (0xff :: (ofString ".d.ts").toList)

/-- A tree with directories that are called like files, and a file whose name spells no string. -/
def namesTree : Disk where
  entries.entries := [
    (["in"], .directory),
    (["in", "lib.x"], .directory),
    (["in", "lib.x", "a.d.ts"], .file (.text "")),
    (["in", "lib.x", "lib.b.d.ts"], .file (.text "")),
    (["in", "x.d.tsx"], .file (.text "")),
    (["in", "y.d.ts"], .directory),
    (["in", "y.d.ts", rawName], .file (.text "")),
    (["in", "y.d.ts", "c.d.ts"], .file (.bytes [255]))]

/-- The same tree the other way round. -/
def reversedTree : Disk := { namesTree with entries.entries := namesTree.entries.entries.reverse }

/-- The same two files are discovered in both. -/
theorem discover_exact_names :
    let s : LoggedDisk := ⟨namesTree, []⟩
    let t : LoggedDisk := ⟨reversedTree, []⟩
    let discovered := fun s => ((discover ⟨"in"⟩ {} : Job (StateM LoggedDisk) (List Path)).run.run s).1
    s.disk.IsPlain ∧ s.disk.resolve true ⟨"in"⟩ = .ok (.entry ["in"] .directory) ∧ s.disk.Walkable ["in"] ⟨"in"⟩ ∧
      s.disk.Reorders t.disk ∧ discovered s = .ok [⟨"in/lib.x/a.d.ts"⟩, ⟨"in/y.d.ts/c.d.ts"⟩] ∧
      discovered t = discovered s := by
  intro s t discovered
  have hplain : s.disk.IsPlain := { toIsTree := by decide, linkFree := by decide }
  have hdir : s.disk.resolve true ⟨"in"⟩ = .ok (.entry ["in"] .directory) := by decide
  have hwalkable : s.disk.Walkable ["in"] ⟨"in"⟩ := by decide
  have hreorders : s.disk.Reorders t.disk := ⟨List.reverse_perm _, rfl⟩
  obtain ⟨paths, -, -, -, hdiscover⟩ := discover_exact hplain hdir {}
  have hs : discovered s = pathsOrFault ⟨"in"⟩ paths := ((hdiscover s ⟨.refl _, rfl⟩).1 hwalkable).2
  have ht : discovered t = pathsOrFault ⟨"in"⟩ paths := ((hdiscover t hreorders).1 hwalkable).2
  refine ⟨hplain, hdir, hwalkable, hreorders, ?_, ht.trans hs.symm⟩
  have hchosen : discovered s = chosen {} ⟨"in"⟩ [.file ⟨"in/lib.x/a.d.ts"⟩, .file ⟨"in/lib.x/lib.b.d.ts"⟩,
      .file ⟨"in/x.d.tsx"⟩, .file ⟨ofString "in/y.d.ts/" ++ rawName⟩, .file ⟨"in/y.d.ts/c.d.ts"⟩] :=
    result_discover_eq_chosen hdir
  rw [hchosen, chosen]
  change pathsOrFault _ (sortedPaths [⟨"in/lib.x/a.d.ts"⟩, ⟨"in/y.d.ts/c.d.ts"⟩]) = _
  rw [sortedPaths, List.mergeSort_of_pairwise (by decide)]
  rfl

/-- A tree with that file alone. -/
def rawNameTree : Disk where
  entries.entries := [(["in"], .directory), (["in", rawName], .file (.text ""))]

/-- **A file whose name spells no string is left out**, although its bytes end like those of a declaration file and
start like those of no platform file. -/
theorem not_discover_rawName :
    let s : LoggedDisk := ⟨rawNameTree, []⟩
    s.disk.IsPlain ∧ s.disk.resolve true ⟨"in"⟩ = .ok (.entry ["in"] .directory) ∧ s.disk.Walkable ["in"] ⟨"in"⟩ ∧
      s.disk.entryAt ["in", rawName] = some (.file (.text "")) ∧ rawName.endsWith ".d.ts" = true ∧
      (∀ start ∈ PlatformFilter.starts {}, rawName.beginsWith (ofString start) = false) ∧
      ((discover ⟨"in"⟩ {} : Job (StateM LoggedDisk) (List Path)).run.run s).1 =
        .error (.noDeclarationFiles ⟨"in"⟩) := by
  intro s
  have hplain : s.disk.IsPlain := { toIsTree := by decide, linkFree := by decide }
  have hdir : s.disk.resolve true ⟨"in"⟩ = .ok (.entry ["in"] .directory) := by decide
  refine ⟨hplain, hdir, by decide, by decide, by decide, by decide, ?_⟩
  have hchosen : ((discover ⟨"in"⟩ {} : Job (StateM LoggedDisk) (List Path)).run.run s).1 =
      chosen {} ⟨"in"⟩ [.file ⟨ofString "in/" ++ rawName⟩] := result_discover_eq_chosen hdir
  rw [hchosen, chosen]
  change pathsOrFault _ (sortedPaths []) = _
  rw [sortedPaths, List.mergeSort_nil]
  rfl

end InteropBindings
