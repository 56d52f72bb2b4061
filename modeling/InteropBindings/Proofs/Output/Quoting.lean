import InteropBindings.Output.DartFile
import InteropBindings.Proofs.Declaration.Namespaces
import InteropBindings.Proofs.Output.Imports
import InteropBindings.Proofs.Text.Lowercase
import InteropBindings.Proofs.Text.Segments
import InteropBindings.Proofs.Text.StringLiterals

/-!
# Names between quotes

A binding opens with a mark that names what is bound, and a binding file with the paths of its imports. Both are written
between single quotes as they are. So they are read back exactly when they stand for themselves in a string literal
(`quoted_names_read_back_iff`). An import path stands for itself exactly when the name of the symbol does
(`isVerbatim_importPath_iff`). An identifier does unless it has a dollar sign (`IsIdentifier.isVerbatim_iff`).
-/

namespace InteropBindings

open Text

/-! ## Texts that stand for themselves -/

namespace Text

theorem isVerbatim_iff {s : String} : IsVerbatim s ↔ ∀ c, mustEscape c = true → c ∉ s.toList := by
  constructor
  · intro h c hc hmem
    rw [h c hmem] at hc
    cases hc
  · intro h c hmem
    rw [Bool.eq_false_iff]
    exact fun hc => h c hc hmem

theorem isVerbatim_append {s t : String} : IsVerbatim (s ++ t) ↔ IsVerbatim s ∧ IsVerbatim t := by
  simp only [IsVerbatim, String.toList_append, List.mem_append, or_imp, forall_and]

/-- Texts with a separator between them stand for themselves when all of them do. -/
theorem isVerbatim_joined {sep : Char} (hsep : mustEscape sep = false) (parts : List String) :
    IsVerbatim (joined sep parts) ↔ ∀ part ∈ parts, IsVerbatim part := by
  have hnil : IsVerbatim (joined sep []) := by simp [IsVerbatim, joined, joinWith]
  induction parts with
  | nil => exact iff_of_true hnil (by simp)
  | cons first rest ih =>
    rw [List.forall_mem_cons]
    refine Iff.trans ?_ (and_congr_right' ih)
    cases rest with
    | nil =>
      have hfirst : joined sep [first] = first := by simp [joined, joinWith]
      rw [hfirst, and_iff_left hnil]
    | cons second rest =>
      have hmark : IsVerbatim (String.ofList [sep]) := by simpa [IsVerbatim] using hsep
      rw [joined_cons sep first (List.cons_ne_nil second rest), isVerbatim_append, isVerbatim_append,
        and_iff_left hmark]

theorem isCaseless_of_mustEscape {c : Char} (h : mustEscape c = true) : isCaseless c = true := by
  simp only [mustEscape, Bool.or_eq_true, beq_iff_eq] at h
  obtain (((rfl | rfl) | rfl) | rfl) | rfl := h <;> decide

/-- The lowercase of a text stands for itself when the text does. -/
theorem isVerbatim_lower (s : String) : IsVerbatim (lower s) ↔ IsVerbatim s := by
  rw [isVerbatim_iff, isVerbatim_iff]
  refine forall₂_congr fun c hc => ?_
  rw [mem_lower_iff (isCaseless_of_mustEscape hc)]

/-- **An identifier stands for itself** unless it has a dollar sign. -/
theorem IsIdentifier.isVerbatim_iff {s : String} (h : IsIdentifier s) : IsVerbatim s ↔ '$' ∉ s.toList := by
  rw [Text.isVerbatim_iff]
  refine ⟨fun hs => hs '$' rfl, fun hdollar c hc hmem => ?_⟩
  have hpart := h.2 c hmem
  simp only [mustEscape, Bool.or_eq_true, beq_iff_eq] at hc
  obtain (((rfl | rfl) | rfl) | rfl) | rfl := hc
  · cases hpart
  · cases hpart
  · exact hdollar hmem
  · cases hpart
  · cases hpart

end Text

/-! ## Names and import paths -/

/-- A qualified name stands for itself when the name and the namespaces around it do. -/
theorem QualifiedName.isVerbatim_within (around : NamespacePath) (name : String) :
    IsVerbatim (within around name).text ↔ (∀ segment ∈ around, IsVerbatim segment) ∧ IsVerbatim name := by
  have hpoint : IsVerbatim "." := by decide
  unfold within
  split
  · next hempty => simp [List.isEmpty_iff.mp hempty]
  · rw [isVerbatim_append, isVerbatim_append, isVerbatim_joined (by decide), and_iff_left hpoint]

/-- **An import path stands for itself** exactly when the name that it is made from does. -/
theorem isVerbatim_importPath_iff (q : QualifiedName) : IsVerbatim (importPath q) ↔ IsVerbatim q.text := by
  have hending : IsVerbatim ".dart" := by decide
  have hfront : IsVerbatim "./" := by decide
  have hparts : q.parts = q.namespaceSegments ++ [q.symbolName] := by
    have hne : q.parts ≠ [] := by simp [QualifiedName.parts, segments, segmentsOf_ne_nil]
    rw [QualifiedName.namespaceSegments, QualifiedName.symbolName, List.getLastD_eq_getLast?,
      List.getLast?_eq_some_getLast hne, Option.getD_some, List.dropLast_concat_getLast hne]
  have htext : IsVerbatim q.text ↔ ∀ part ∈ q.parts, IsVerbatim part := by
    have hpoint : mustEscape '.' = false := by decide
    rw [QualifiedName.parts, ← isVerbatim_joined hpoint, joined_segments]
  have hpath : IsVerbatim (joined '/' (q.namespaceSegments.map lower ++ [lower q.symbolName ++ ".dart"])) ↔
      IsVerbatim q.text := by
    rw [isVerbatim_joined (by decide), htext, hparts]
    simp [or_imp, forall_and, isVerbatim_append, isVerbatim_lower, hending]
  unfold importPath
  dsimp only
  split
  · exact hpath
  · rw [isVerbatim_append, and_iff_right hfront, hpath]

/-! ## Quoted names -/

/-- A text that binds something of a given name: a class that is new, a function that is new, or a type alias. -/
inductive Scope.Binds (s : Scope) : QualifiedName → String → Prop
  | ofClass (c : ClassDeclaration) (known : MemberSignatures) (hnew : known.contains (s.qualify c.name) = false) :
    Binds s (s.qualify c.name) (c.emit s known).code
  | ofFunction (f : FunctionDeclaration) (known : MemberSignatures) (hnew : f.isKnown s known = false) :
    Binds s (s.qualify f.name) (f.emit s known).code
  | ofAlias (a : AliasDeclaration) : Binds s (s.qualify a.name) (a.emit s).code

theorem boundTo_append (q : QualifiedName) (block : String) :
    boundTo q ++ block = "@JS('" ++ q.text ++ "'" ++ (")\n" ++ block) := by
  simp [boundTo, ← String.toList_inj]

/-- A text that binds something opens with the mark of its name. -/
theorem Scope.Binds.exists_eq {s : Scope} {q : QualifiedName} {code : String} (h : s.Binds q code) :
    ∃ block, code = boundTo q ++ block := by
  cases h with
  | ofClass c known hnew =>
    rw [ClassDeclaration.emit, hnew, if_neg Bool.false_ne_true, classStub]
    simp only [String.append_assoc]
    exact ⟨_, rfl⟩
  | ofFunction f known hnew =>
    rw [FunctionDeclaration.emit, hnew, if_neg Bool.false_ne_true]
    simp only [String.append_assoc]
    exact ⟨_, rfl⟩
  | ofAlias a =>
    rw [AliasDeclaration.emit]
    simp only [String.append_assoc]
    exact ⟨_, rfl⟩

/-- The line that imports a file. -/
def importLine (i : String) : String := "import '" ++ i ++ "';\n"

/-- A binding file around one of its imports. -/
theorem exists_dartFile_eq (code : String) (before : List String) (i : String) (after : List String) :
    ∃ rest, dartFile code (before ++ i :: after) =
      String.join (before.map importLine) ++ ("import '" ++ i ++ "'" ++ (";\n" ++ rest)) := by
  have hline : ∀ rest : String, importLine i ++ rest = "import '" ++ i ++ "'" ++ (";\n" ++ rest) := by
    intro rest
    simp [importLine, ← String.toList_inj]
  have hfile : ∀ imports : List String, imports ≠ [] →
      dartFile code imports = String.join (imports.map importLine) ++ ("\n" ++ code) := by
    intro imports hne
    rw [dartFile, if_neg (by simpa using hne), String.append_assoc]
    rfl
  refine ⟨String.join (after.map importLine) ++ ("\n" ++ code), ?_⟩
  rw [← hline, hfile _ (by simp), List.map_append, List.map_cons, String.join_append, String.join_cons]
  simp only [String.append_assoc]

/-- **Names between quotes are read back** exactly when they stand for themselves: the name in the mark of a binding
when the name and the namespaces around it do, and a path in an import when the name does that it is made from. -/
theorem quoted_names_read_back_iff (s : Scope) :
    (∀ name code : String, s.Binds (s.qualify name) code → ∃ block,
      code = "@JS('" ++ (s.qualify name).text ++ "'" ++ (")\n" ++ block) ∧
      (literalBehind "@JS('" code = some (units16 (s.qualify name).text.toList, ")\n" ++ block) ↔
        (∀ segment ∈ s.around, IsVerbatim segment) ∧ IsVerbatim name)) ∧
    (∀ (code : String) (before : List String) (i : String) (after : List String), ∃ rest,
      dartFile code (before ++ i :: after) =
        String.join (before.map importLine) ++ ("import '" ++ i ++ "'" ++ (";\n" ++ rest)) ∧
      (literalBehind "import '" ("import '" ++ i ++ "'" ++ (";\n" ++ rest)) = some (units16 i.toList, ";\n" ++ rest) ↔
        IsVerbatim i)) ∧
    ∀ (types : List (Option TypeNode)) (i : String), i ∈ s.imports types → ∃ name,
      i = importPath (s.qualify name) ∧
        (IsVerbatim i ↔ (∀ segment ∈ s.around, IsVerbatim segment) ∧ IsVerbatim name) := by
  refine ⟨fun name code h => ?_, fun code before i after => ?_, fun types i h => ?_⟩
  · obtain ⟨block, rfl⟩ := h.exists_eq
    refine ⟨block, boundTo_append _ block, ?_⟩
    rw [boundTo_append, literalBehind_eq_some_iff]
    exact QualifiedName.isVerbatim_within s.around name
  · obtain ⟨rest, hrest⟩ := exists_dartFile_eq code before i after
    exact ⟨rest, hrest, literalBehind_eq_some_iff⟩
  · obtain ⟨t, _, q, ⟨name, file, _, rfl, _⟩, rfl⟩ := Scope.mem_imports_iff.mp h
    refine ⟨name, rfl, ?_⟩
    rw [isVerbatim_importPath_iff]
    exact QualifiedName.isVerbatim_within s.around name

/-- A scope in a namespace where another file declares a class. -/
def scopeInOl : Scope := ⟨⟨Ledger.empty.put ⟨"ol.View"⟩ ⟨"in/view.d.ts"⟩, {}⟩, ⟨"in/map.d.ts"⟩, ["ol"]⟩

/-- The name of a class in a namespace is read back, and so is the path that the type of a member is imported from. -/
theorem quoted_names_read_back_iff_map :
    (∃ block, literalBehind "@JS('" ((⟨"Map", []⟩ : ClassDeclaration).emit scopeInOl .empty).code =
      some (units16 "ol.Map".toList, ")\n" ++ block)) ∧
    (∃ rest, literalBehind "import '" (dartFile "" ["./ol/view.dart"]) =
      some (units16 "./ol/view.dart".toList, ";\n" ++ rest)) ∧
    "./ol/view.dart" ∈ scopeInOl.imports [some (.reference "View")] ∧
    ∃ name, "./ol/view.dart" = importPath (scopeInOl.qualify name) ∧ IsVerbatim name := by
  obtain ⟨hmarks, hfiles, himports⟩ := quoted_names_read_back_iff scopeInOl
  obtain ⟨block, _, hmark⟩ := hmarks "Map" _ (.ofClass ⟨"Map", []⟩ .empty rfl)
  obtain ⟨rest, hfile, hline⟩ := hfiles "" [] "./ol/view.dart" []
  have himport : "./ol/view.dart" ∈ scopeInOl.imports [some (.reference "View")] := by decide +kernel
  obtain ⟨name, hpath, hname⟩ := himports _ _ himport
  refine ⟨⟨block, hmark.mpr ⟨by decide, by decide⟩⟩, ⟨rest, ?_⟩, himport, name, hpath, (hname.mp (by decide)).2⟩
  rw [List.nil_append] at hfile
  rw [hfile]
  exact hline.mpr (by decide)

/-- A text of a file that declares a class whose name starts with a dollar sign. -/
def dollarText : String := "export class $Foo {}\n"

/-- The file. -/
def dollarFile : DeclarationFile := ⟨⟨"in/a.d.ts"⟩, [.declaration (.classDecl ⟨"$Foo", []⟩)]⟩

/-- The text that binds the class. -/
def dollarBinding : String :=
    ((⟨"$Foo", []⟩ : ClassDeclaration).emit ⟨.build [dollarFile] {}, dollarFile.path, []⟩ .empty).code

set_option maxRecDepth 4000 in
/-- **A name with a dollar sign is not read back**: the class is declared and bound, and the mark in front of its
binding holds no literal. -/
theorem not_read_back_dollar :
    DeclarationFile.read typeScript ⟨"in/a.d.ts"⟩ dollarText = .ok dollarFile ∧
      dollarBinding =
        "@JS('$Foo')\n@staticInterop\nclass $Foo \x7b\n  external factory $Foo(JSObject? opt_options);\n\x7d\n\n" ∧
      literalBehind "@JS('" dollarBinding = none := by
  have hkind : SourceKind.ofPath ⟨"in/a.d.ts"⟩ = .declarations := by decide +kernel
  have hitems : Source.readItems true true dollarText = .ok [.exported (.classDecl "$Foo" [])] := by rfl
  refine ⟨?_, by rfl, by rfl⟩
  rw [DeclarationFile.read_eq, typeScript_of_declarations hkind]
  exact congrArg (Except.map _) hitems

end InteropBindings
