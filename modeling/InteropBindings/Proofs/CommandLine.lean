import InteropBindings.CommandLine
import InteropBindings.Proofs.Files.Jobs
import InteropBindings.Proofs.Text.RawText
import Mathlib.Data.List.Perm.Basic

/-!
# The grammar of the command line

Arguments are read in groups from left to right: an option with the argument behind it, a flag, or a positional, which
does not start with a dash (`ArgumentGroup`). Taking a group is one step (`Command.extend_words`), and the arguments of
some groups are read as these steps in a row (`Command.extend_flatMap_words`).

- arguments are accepted exactly when they are those of groups with at most two positionals, and what they ask for is
  read off the groups (`Command.parse_eq_ok_iff`);
- arguments are split into groups in one way (`ArgumentGroup.flatMap_words_injective`), and flags may stand anywhere
  (`Command.parse_eq_of_perm`);
- the settings of a command are those of its file, or the usual ones, overridden field by field
  (`Command.ends_settle_iff`).
-/

namespace InteropBindings

open Text

/-! ## Groups -/

/-- Arguments that are read together. -/
inductive ArgumentGroup
  /-- The option for settings, long or short, with whatever argument comes behind it. -/
  | settings (isShort : Bool) (path : String)
  | dryRun
  | noAggregators
  /-- The flag for help, long or short. -/
  | help (isShort : Bool)
  /-- An argument that does not start with a dash. -/
  | positional (text : String) (dashless : beginsWith "-" text = false)
deriving DecidableEq

namespace ArgumentGroup

/-- The arguments of a group. -/
def words : ArgumentGroup → List String
  | .settings isShort path => [if isShort then "-c" else "--config", path]
  | .dryRun => ["--dry-run"]
  | .noAggregators => ["--no-aggregators"]
  | .help isShort => [if isShort then "-h" else "--help"]
  | .positional text _ => [text]

/-- Whether a group is a flag. -/
def isFlag : ArgumentGroup → Bool
  | .dryRun | .noAggregators | .help _ => true
  | .settings .. | .positional .. => false

/-- Whether a group is the flag for help. -/
def isHelp : ArgumentGroup → Bool
  | .help _ => true
  | _ => false

/-- The directory that a positional names. -/
def directory? : ArgumentGroup → Option Path
  | .positional text _ => some ⟨text⟩
  | _ => none

/-- The file that an option for settings names. -/
def settingsFile? : ArgumentGroup → Option Path
  | .settings _ path => some ⟨path⟩
  | _ => none

theorem ne_of_dashless {text word : String} (htext : beginsWith "-" text = false) (hword : beginsWith "-" word = true) :
    text ≠ word := by
  rintro rfl
  rw [htext] at hword
  cases hword

/-- The words that are options or flags. -/
def keywords : List String := ["--config", "-c", "--dry-run", "--no-aggregators", "--help", "-h"]

theorem not_mem_keywords {text : String} (h : beginsWith "-" text = false) : text ∉ keywords := by
  have hdash : ∀ word ∈ keywords, beginsWith "-" word = true := by decide
  exact fun hmem => ne_of_dashless h (hdash text hmem) rfl

/-- **Groups are found again** from their arguments: the first argument of a group tells which one it is. -/
theorem words_append_inj {g g' : ArgumentGroup} {rest rest' : List String} (h : g.words ++ rest = g'.words ++ rest') :
    g = g' ∧ rest = rest' := by
  have hpositional := @not_mem_keywords
  simp only [keywords] at hpositional
  cases g <;> cases g' <;> grind [words]

/-- Groups have different arguments from other groups, so arguments are split in one way only. -/
theorem flatMap_words_injective {gs gs' : List ArgumentGroup} (h : gs.flatMap words = gs'.flatMap words) :
    gs = gs' := by
  have hne : ∀ (g : ArgumentGroup) (rest : List String), g.words ++ rest ≠ [] := by
    intro g rest
    cases g <;> simp [words]
  induction gs generalizing gs' with
  | nil =>
    cases gs' with
    | nil => rfl
    | cons g' gs' => exact absurd h.symm (hne g' _)
  | cons g gs ih =>
    cases gs' with
    | nil => exact absurd h (hne g _)
    | cons g' gs' =>
      obtain ⟨rfl, hrest⟩ := words_append_inj h
      rw [ih hrest]

/-- The directories that groups name, in order. -/
def directories (gs : List ArgumentGroup) : List Path := gs.filterMap directory?

/-- The files that groups name for settings, in order. -/
def settingsFiles (gs : List ArgumentGroup) : List Path := gs.filterMap settingsFile?

theorem directories_append (before after : List ArgumentGroup) :
    directories (before ++ after) = directories before ++ directories after := List.filterMap_append

theorem settingsFiles_append (before after : List ArgumentGroup) :
    settingsFiles (before ++ after) = settingsFiles before ++ settingsFiles after := List.filterMap_append

theorem filterMap_filter_isFlag {value? : ArgumentGroup → Option Path} (h : ∀ g, g.isFlag = true → value? g = none)
    (gs : List ArgumentGroup) : (gs.filter fun g => !g.isFlag).filterMap value? = gs.filterMap value? := by
  rw [List.filterMap_filter]
  congr 1
  funext g
  cases hg : g.isFlag with
  | true => rw [h g hg]; rfl
  | false => rfl

theorem directory?_eq_none : ∀ g : ArgumentGroup, g.isFlag = true → g.directory? = none
  | .dryRun, _ | .noAggregators, _ | .help _, _ => rfl

theorem settingsFile?_eq_none : ∀ g : ArgumentGroup, g.isFlag = true → g.settingsFile? = none
  | .dryRun, _ | .noAggregators, _ | .help _, _ => rfl

end ArgumentGroup

open ArgumentGroup

/-! ## Reading groups -/

namespace Command

/-- Takes one group into account. A third directory is refused. -/
def take (c : Command) : ArgumentGroup → Except ArgumentError Command
  | .settings _ path => .ok { c with settings := some ⟨path⟩ }
  | .dryRun => .ok { c with dryRun := true }
  | .noAggregators => .ok { c with noAggregators := true }
  | .help _ => .ok { c with help := true }
  | .positional text _ =>
    if c.inputDir.isNone then .ok { c with inputDir := some ⟨text⟩ }
    else if c.outputDir.isNone then .ok { c with outputDir := some ⟨text⟩ }
    else .error (.unexpected text)

/-- **One step**: the arguments of a group are taken into account, then the ones behind them. -/
theorem extend_words (c : Command) (g : ArgumentGroup) (rest : List String) :
    c.extend (g.words ++ rest) = (do (← c.take g).extend rest) := by
  cases g with
  | settings isShort path => cases isShort <;> rfl
  | dryRun => exact extend.eq_def c ("--dry-run" :: rest)
  | noAggregators => exact extend.eq_def c ("--no-aggregators" :: rest)
  | help isShort =>
    cases isShort with
    | false => exact extend.eq_def c ("--help" :: rest)
    | true => exact extend.eq_def c ("-h" :: rest)
  | positional text dashless =>
    have hword := not_mem_keywords dashless
    simp only [keywords, List.mem_cons, List.not_mem_nil, or_false, not_or] at hword
    obtain ⟨hlong, hshort, hdry, hno, hhelp, hh⟩ := hword
    change c.extend (text :: rest) = _
    rw [extend.eq_def c]
    simp only [take, beq_iff_eq, Bool.or_eq_true, hlong, hshort, hdry, hno, hhelp, hh, or_self, if_false, dashless,
      Bool.false_eq_true]
    cases c.inputDir <;> cases c.outputDir <;> rfl

/-- **A run**: the groups are taken into account one after another. -/
theorem extend_flatMap_words (c : Command) (gs : List ArgumentGroup) :
    c.extend (gs.flatMap words) = gs.foldlM take c := by
  induction gs generalizing c with
  | nil => rfl
  | cons g gs ih =>
    rw [List.flatMap_cons, extend_words, List.foldlM_cons]
    simp only [ih]

/-- What is accepted are the arguments of some groups. -/
theorem exists_groups_of_extend {c c' : Command} {args : List String} (h : c.extend args = .ok c') :
    ∃ gs : List ArgumentGroup, gs.flatMap words = args := by
  fun_induction extend c args with
  | case1 c => exact ⟨[], rfl⟩
  | case2 c argument hconfig path rest ih =>
    obtain ⟨gs, rfl⟩ := ih h
    simp only [Bool.or_eq_true, beq_iff_eq] at hconfig
    obtain rfl | rfl := hconfig
    · exact ⟨.settings false path :: gs, rfl⟩
    · exact ⟨.settings true path :: gs, rfl⟩
  | case3 => cases h
  | case4 c argument rest _ hdry ih =>
    obtain ⟨gs, rfl⟩ := ih h
    obtain rfl := eq_of_beq hdry
    exact ⟨.dryRun :: gs, rfl⟩
  | case5 c argument rest _ _ hno ih =>
    obtain ⟨gs, rfl⟩ := ih h
    obtain rfl := eq_of_beq hno
    exact ⟨.noAggregators :: gs, rfl⟩
  | case6 c argument rest _ _ _ hhelp ih =>
    obtain ⟨gs, rfl⟩ := ih h
    simp only [Bool.or_eq_true, beq_iff_eq] at hhelp
    obtain rfl | rfl := hhelp
    · exact ⟨.help false :: gs, rfl⟩
    · exact ⟨.help true :: gs, rfl⟩
  | case7 => cases h
  | case8 c argument rest _ _ _ _ hdash _ ih | case9 c argument rest _ _ _ _ hdash _ _ ih =>
    obtain ⟨gs, rfl⟩ := ih h
    exact ⟨.positional argument (eq_false_of_ne_true hdash) :: gs, rfl⟩
  | case10 => cases h

/-! ## What groups ask for -/

/-- What groups ask for: the first directory is the input and the second the output, the last settings count, and a flag
is set when it occurs. -/
def ofGroups (gs : List ArgumentGroup) : Command :=
  { inputDir := (directories gs)[0]?
    outputDir := (directories gs)[1]?
    settings := (settingsFiles gs).getLast?
    dryRun := decide (.dryRun ∈ gs)
    noAggregators := decide (.noAggregators ∈ gs)
    help := gs.any isHelp }

/-- A group that is not too many is one more. -/
theorem take_ofGroups {before : List ArgumentGroup} {g : ArgumentGroup} (h : (directories (before ++ [g])).length ≤ 2) :
    (ofGroups before).take g = .ok (ofGroups (before ++ [g])) := by
  rw [directories_append] at h
  cases g with
  | positional text dashless =>
    have hlast : directories [.positional text dashless] = [⟨text⟩] := rfl
    have hsettings : settingsFiles [.positional text dashless] = [] := rfl
    rw [hlast] at h
    unfold take ofGroups
    rw [directories_append, settingsFiles_append, hlast, hsettings]
    match hdirs : directories before with
    | [] => simp [isHelp]
    | [_] => simp [isHelp]
    | _ :: _ :: _ =>
      rw [hdirs] at h
      simp at h
  | _ => simp [take, ofGroups, directories, settingsFiles, List.filterMap_cons, directory?, settingsFile?, isHelp]

theorem take_ofGroups_of_full {before : List ArgumentGroup} {text : String} (h : (directories before).length = 2)
    (dashless : beginsWith "-" text = false) :
    (ofGroups before).take (.positional text dashless) = .error (.unexpected text) := by
  unfold take ofGroups
  match hdirs : directories before with
  | [_, _] => rfl
  | [] | [_] | _ :: _ :: _ :: _ => simp [hdirs] at h

/-- **What groups ask for**, however many have been taken into account already. -/
theorem foldlM_take_ofGroups {before : List ArgumentGroup} (h : (directories before).length ≤ 2)
    (gs : List ArgumentGroup) :
    gs.foldlM take (ofGroups before) = match (directories (before ++ gs))[2]? with
      | none => .ok (ofGroups (before ++ gs))
      | some extra => .error (.unexpected extra.text.shown) := by
  induction gs generalizing before with
  | nil =>
    rw [List.append_nil, List.getElem?_eq_none h]
    rfl
  | cons g gs ih =>
    rw [List.foldlM_cons]
    by_cases hmore : (directories (before ++ [g])).length ≤ 2
    · have hrest := ih hmore
      rw [List.append_assoc] at hrest
      rw [take_ofGroups hmore]
      exact hrest
    · -- only a positional adds a directory, and it is the third one
      rw [directories_append, List.length_append] at hmore
      cases g with
      | positional text dashless =>
        have hlast : directories [.positional text dashless] = [⟨text⟩] := rfl
        rw [hlast] at hmore
        have hfull : (directories before).length = 2 := by
          simp at hmore
          omega
        have hthird : (directories (before ++ .positional text dashless :: gs))[2]? = some ⟨text⟩ := by
          rw [List.append_cons, directories_append, directories_append, hlast, List.append_assoc, ← hfull,
            List.getElem?_append_right (Nat.le_refl _), Nat.sub_self]
          rfl
        rw [take_ofGroups_of_full hfull, hthird]
        dsimp only
        rw [RawText.shown_ofString]
        rfl
      | _ => exact absurd h hmore

/-- **The arguments of groups** are accepted unless a third directory is among them. -/
theorem parse_flatMap_words (gs : List ArgumentGroup) : parse (gs.flatMap words) = match (directories gs)[2]? with
    | none => .ok (ofGroups gs)
    | some extra => .error (.unexpected extra.text.shown) := by
  have hnone : (directories []).length ≤ 2 := Nat.zero_le 2
  rw [parse, extend_flatMap_words]
  exact foldlM_take_ofGroups hnone gs

/-- **The grammar of the command line**: arguments are accepted when they are those of groups with at most two
directories. -/
theorem parse_eq_ok_iff {args : List String} {c : Command} : parse args = .ok c ↔
    ∃ gs : List ArgumentGroup, gs.flatMap words = args ∧ (directories gs).length ≤ 2 ∧ c = ofGroups gs := by
  constructor
  · intro h
    obtain ⟨gs, rfl⟩ := exists_groups_of_extend h
    rw [parse_flatMap_words] at h
    cases hthird : (directories gs)[2]? with
    | none =>
      rw [hthird] at h
      cases h
      exact ⟨gs, rfl, List.getElem?_eq_none_iff.mp hthird, rfl⟩
    | some extra =>
      rw [hthird] at h
      cases h
  · rintro ⟨gs, rfl, htwo, rfl⟩
    rw [parse_flatMap_words, List.getElem?_eq_none htwo]

/-- **Flags may stand anywhere**: groups ask for the same when they differ in where flags stand only. -/
theorem parse_eq_of_perm {gs gs' : List ArgumentGroup} (hperm : gs.Perm gs')
    (hothers : (gs.filter fun g => !g.isFlag) = gs'.filter fun g => !g.isFlag) :
    parse (gs.flatMap words) = parse (gs'.flatMap words) := by
  have hdirectories : directories gs = directories gs' := by
    unfold directories
    rw [← filterMap_filter_isFlag directory?_eq_none gs, hothers, filterMap_filter_isFlag directory?_eq_none]
  have hsettings : settingsFiles gs = settingsFiles gs' := by
    unfold settingsFiles
    rw [← filterMap_filter_isFlag settingsFile?_eq_none gs, hothers, filterMap_filter_isFlag settingsFile?_eq_none]
  have hgroups : ofGroups gs = ofGroups gs' := by
    unfold ofGroups
    rw [hdirectories, hsettings, hperm.any_eq]
    simp only [hperm.mem_iff]
  rw [parse_flatMap_words, parse_flatMap_words, hdirectories, hgroups]

/-! ## Settings -/

/-- **The settings of a command** are those of its file, or the usual ones, with what the command says put over them. -/
theorem ends_settle_iff {c : Command} {s s' : LoggedDisk} {t : Settings} : c.settle.Ends s t s' ↔
    ∃ base : Settings,
      (match c.settings with
        | some path => (Settings.load path).Ends s base s'
        | none => base = {} ∧ s' = s) ∧
      t = c.override base := by
  unfold settle
  cases c.settings with
  | none =>
    constructor
    · intro h
      obtain ⟨rfl, rfl⟩ := Job.ends_pure.mp h
      exact ⟨{}, ⟨rfl, rfl⟩, rfl⟩
    · rintro ⟨base, ⟨rfl, rfl⟩, rfl⟩
      exact Job.ends_pure.mpr ⟨rfl, rfl⟩
  | some path =>
    constructor
    · intro h
      obtain ⟨base, s₁, hload, hover⟩ := Job.ends_bind.mp h
      obtain ⟨rfl, rfl⟩ := Job.ends_pure.mp hover
      exact ⟨base, hload, rfl⟩
    · rintro ⟨base, hload, rfl⟩
      exact Job.ends_bind.mpr ⟨base, s', hload, Job.ends_pure.mpr ⟨rfl, rfl⟩⟩

/-- Settings with what a command says put over them, field by field. -/
theorem eq_override_iff {c : Command} {base t : Settings} : t = c.override base ↔
    t.inputDir = c.inputDir.or base.inputDir ∧ t.outputDir = c.outputDir.or base.outputDir ∧
      t.dryRun = (base.dryRun || c.dryRun) ∧ t.aggregators = (base.aggregators && !c.noAggregators) ∧
      t.exclude = base.exclude := by
  constructor
  · rintro rfl
    exact ⟨Option.orElse_eq_or, Option.orElse_eq_or, rfl, rfl, rfl⟩
  · rintro ⟨hinput, houtput, hdry, haggregators, hexclude⟩
    obtain ⟨inputDir, outputDir, exclude, aggregators, dryRun⟩ := t
    simp_all [override]

/-- What groups ask for, field by field. -/
theorem eq_ofGroups_iff {c : Command} {gs : List ArgumentGroup} : c = ofGroups gs ↔
    c.inputDir = (directories gs)[0]? ∧ c.outputDir = (directories gs)[1]? ∧ c.settings = (settingsFiles gs).getLast? ∧
      (c.dryRun = true ↔ .dryRun ∈ gs) ∧ (c.noAggregators = true ↔ .noAggregators ∈ gs) ∧
      (c.help = true ↔ ∃ isShort, .help isShort ∈ gs) := by
  have hhelp : gs.any isHelp = true ↔ ∃ isShort, .help isShort ∈ gs := by
    rw [List.any_eq_true]
    constructor
    · rintro ⟨g, hmem, hg⟩
      cases g with
      | help isShort => exact ⟨isShort, hmem⟩
      | _ => cases hg
    · rintro ⟨isShort, hmem⟩
      exact ⟨.help isShort, hmem, rfl⟩
  constructor
  · rintro rfl
    exact ⟨rfl, rfl, rfl, decide_eq_true_iff, decide_eq_true_iff, hhelp⟩
  · rintro ⟨hinput, houtput, hsettings, hdry, hno, hflag⟩
    have hdry' : c.dryRun = decide (.dryRun ∈ gs) := Bool.eq_iff_iff.mpr (hdry.trans decide_eq_true_iff.symm)
    have hno' : c.noAggregators = decide (.noAggregators ∈ gs) :=
      Bool.eq_iff_iff.mpr (hno.trans decide_eq_true_iff.symm)
    have hflag' : c.help = gs.any isHelp := Bool.eq_iff_iff.mpr (hflag.trans hhelp.symm)
    unfold ofGroups
    rw [← hinput, ← houtput, ← hsettings, ← hdry', ← hno', ← hflag']

/-- **The command line** accepts the arguments of groups with at most two directories and reads what they ask for off
the groups. Arguments are split into groups in one way, and flags may stand anywhere among them. What the command says
is put over the settings of its file, or over the usual ones, field by field. -/
theorem parse_and_settle_iff :
    (∀ (args : List String) (c : Command), parse args = .ok c ↔
      ∃ gs : List ArgumentGroup, gs.flatMap words = args ∧ (directories gs).length ≤ 2 ∧
        c.inputDir = (directories gs)[0]? ∧ c.outputDir = (directories gs)[1]? ∧
          c.settings = (settingsFiles gs).getLast? ∧
        (c.dryRun = true ↔ .dryRun ∈ gs) ∧ (c.noAggregators = true ↔ .noAggregators ∈ gs) ∧
        (c.help = true ↔ ∃ isShort, .help isShort ∈ gs)) ∧
      (∀ gs gs' : List ArgumentGroup, gs.flatMap words = gs'.flatMap words → gs = gs') ∧
      (∀ gs gs' : List ArgumentGroup, gs.Perm gs' → (gs.filter fun g => !g.isFlag) = (gs'.filter fun g => !g.isFlag) →
        parse (gs.flatMap words) = parse (gs'.flatMap words)) ∧
      ∀ (c : Command) (s : LoggedDisk) (t : Settings) (s' : LoggedDisk), c.settle.Ends s t s' ↔
        ∃ base : Settings,
          (match c.settings with
            | some path => (Settings.load path).Ends s base s'
            | none => base = {} ∧ s' = s) ∧
          t.inputDir = c.inputDir.or base.inputDir ∧ t.outputDir = c.outputDir.or base.outputDir ∧
          t.dryRun = (base.dryRun || c.dryRun) ∧ t.aggregators = (base.aggregators && !c.noAggregators) ∧
          t.exclude = base.exclude := by
  refine ⟨fun args c => ?_, fun _ _ => flatMap_words_injective, fun _ _ => parse_eq_of_perm, fun c s t s' => ?_⟩
  · simp only [parse_eq_ok_iff, eq_ofGroups_iff]
  · simp only [ends_settle_iff, eq_override_iff]

/-- The option for settings takes any argument behind it, and the empty argument is a directory. -/
theorem parse_and_settle_of_help_swallowed :
    let gs : List ArgumentGroup :=
      [.settings true "--help", .positional "" rfl, .dryRun, .positional "out" rfl, .settings false "s.toml"]
    let moved : List ArgumentGroup :=
      [.settings true "--help", .positional "" rfl, .positional "out" rfl, .settings false "s.toml", .dryRun]
    let c : Command := { inputDir := some ⟨""⟩, outputDir := some ⟨"out"⟩, settings := some ⟨"s.toml"⟩, dryRun := true }
    let disk : Disk := { entries := ⟨[(["s.toml"], .file (.text "output_dir = \"lib\"\nexclude = [\"x\"]\n"))]⟩ }
    parse ["-c", "--help", "", "--dry-run", "out", "--config", "s.toml"] = .ok c ∧
      parse (moved.flatMap words) = parse (gs.flatMap words) ∧
      c.settle.Ends ⟨disk, []⟩ { inputDir := some ⟨""⟩, outputDir := some ⟨"out"⟩, dryRun := true, exclude := ["x"] }
        ⟨disk, [.settingsLoaded ⟨"s.toml"⟩]⟩ := by
  intro gs moved c disk
  refine ⟨?_, ?_, ?_⟩
  · exact (parse_and_settle_iff.1 _ c).mpr ⟨gs, rfl, by decide, rfl, rfl, rfl, by decide, by decide, by decide⟩
  · exact parse_and_settle_iff.2.2.1 _ _ (by decide) rfl
  · exact (parse_and_settle_iff.2.2.2 c _ _ _).mpr
      ⟨{ outputDir := some ⟨"lib"⟩, exclude := ["x"] }, by decide, rfl, rfl, rfl, rfl, rfl⟩

end Command

end InteropBindings
