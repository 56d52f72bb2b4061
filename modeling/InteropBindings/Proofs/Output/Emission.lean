import InteropBindings.Proofs.Output.Growth
import InteropBindings.Proofs.Sorted

/-!
# What an emission changes

Classes and functions are emitted into a file one after the other. An emission gives a text, adds imports to those of
the file and signatures to those that have been bound. It has no text exactly when it changes nothing.

- a declaration is bound when its symbol has signatures and these hold all that it declares
  (`MergedDeclaration.IsBound`): then, and only then, its emission has no text and records nothing
  (`MergedDeclaration.code_emit_eq_empty_iff_isBound`, `MergedDeclaration.signatures_eq_self_iff`), and no import is
  needed for it either (`MergedDeclaration.imports_emit_of_isBound`);
- an emission leaves its declaration bound (`MergedDeclaration.isBound_signatures`), and further ones do not change that
  (`EmissionState.isBound_run`);
- a class that is gone through member by member has the same emission (`ClassDeclaration.memberwise_eq`);
- emissions one after the other have no text exactly when they change nothing (`EmissionState.textOf_eq_empty_iff`);
- so a file loses no import where chunks without text are dropped (`OutputRecord.state_foldl_add`).
-/

namespace InteropBindings

/-! ## Import sets -/

/-- An import set with further imports. -/
def addImports (imports more : List String) :
    List String := more.foldl (fun set path => Sorted.insert compare path set) imports

theorem sublist_addImports (imports more : List String) : imports.Sublist (addImports imports more) :=
  Sorted.sublist_foldl_insert more

theorem addImports_append (imports more others : List String) :
    addImports imports (more ++ others) = addImports (addImports imports more) others :=
  List.foldl_append

theorem sortedTexts_append (imports more : List String) :
    sortedTexts (imports ++ more) = addImports (sortedTexts imports) more :=
  List.foldl_append

/-! ## Signatures of a symbol -/

namespace MemberSignatures

variable {q : QualifiedName}

theorem of_put_self (known : MemberSignatures) (q : QualifiedName) (bound : List String) :
    MemberSignatures.of (known.put q bound) q = bound := by
  rw [of, Ledger.get?_put_self, Option.getD_some]

theorem contains_put_self (known : MemberSignatures) (q : QualifiedName) (bound : List String) :
    (known.put q bound).contains q = true := by
  rw [Ledger.contains, Ledger.get?_put_self, Option.isSome_some]

theorem contains_of_mem_of {known : MemberSignatures} {signature : String} (h : signature ∈ known.of q) :
    known.contains q = true := by
  cases hget : known.get? q with
  | none =>
    rw [of, hget] at h
    cases h
  | some bound => rw [Ledger.contains, hget, Option.isSome_some]

theorem put_of_self {known : MemberSignatures} (h : known.contains q = true) : known.put q (known.of q) = known := by
  obtain ⟨bound, hbound⟩ := Option.isSome_iff_exists.mp h
  refine Ledger.put_of_get? ?_
  rw [of, hbound, Option.getD_some]

end MemberSignatures

/-! ## Declarations with signatures -/

theorem extensionBlock_eq_empty_iff {className : String} {members : List String} :
    extensionBlock className members = "" ↔ members = [] := by
  cases members with
  | nil => exact iff_of_true rfl rfl
  | cons m members =>
    exact iff_of_false (by simp [extensionBlock, String.append_eq_empty_iff]) (List.cons_ne_nil m members)

/-- What is emitted against the signatures that have been bound: a class or a function. -/
inductive MergedDeclaration
  | classDecl (c : ClassDeclaration)
  | function (f : FunctionDeclaration)
deriving DecidableEq, Repr

namespace MergedDeclaration

/-- The declaration. -/
def declaration : MergedDeclaration → Declaration
  | .classDecl c => .classDecl c
  | .function f => .function f

/-- The name that is declared. -/
def name : MergedDeclaration → String
  | .classDecl c => c.name
  | .function f => f.name

/-- The signatures that are declared. -/
def declared : MergedDeclaration → List String
  | .classDecl c => c.members.map Member.signature
  | .function f => [f.signature]

/-- The binding of a class or a function. -/
def emit (d : MergedDeclaration) (s : Scope) (known : MemberSignatures) : Chunk :=
  match d with
  | .classDecl c => c.emit s known
  | .function f => f.emit s known

/-- The signatures bound after a class or a function. -/
def signatures (d : MergedDeclaration) (s : Scope) (known : MemberSignatures) : MemberSignatures :=
  match d with
  | .classDecl c => c.signatures s known
  | .function f => f.signatures s known

/-- The declared signatures that a symbol does not have yet, once each. -/
def newSignatures (d : MergedDeclaration) (q : QualifiedName) (known : MemberSignatures) : List String :=
  firsts id (known.of q) d.declared

/-- Whether a symbol has signatures, and all that are declared are among them. -/
def IsBound (d : MergedDeclaration) (q : QualifiedName) (known : MemberSignatures) : Prop :=
  known.contains q = true ∧ ∀ signature ∈ d.declared, signature ∈ known.of q

variable {d : MergedDeclaration} {s : Scope} {q : QualifiedName} {known known' : MemberSignatures}

theorem IsBound.mono (h : d.IsBound q known) (hq : known'.contains q = true) (hof : known.of q ⊆ known'.of q) :
    d.IsBound q known' :=
  ⟨hq, fun signature hs => hof (h.2 signature hs)⟩

theorem newSignatures_eq_nil_iff : d.newSignatures q known = [] ↔ ∀ signature ∈ d.declared, signature ∈ known.of q :=
  firsts_eq_nil_iff id

theorem map_signature_freshMembers (c : ClassDeclaration) (q : QualifiedName) (known : MemberSignatures) :
    (c.freshMembers known q).map Member.signature = (classDecl c).newSignatures q known := by
  have h : firsts id (known.of q) (c.members.map Member.signature) =
      (firsts Member.signature (known.of q) c.members).map Member.signature :=
    firsts_map_of_injective (g := fun s => s) (fun _ _ h => h) (fun _ _ => rfl) fun _ => Iff.rfl
  rw [ClassDeclaration.freshMembers, Member.fresh_eq_firsts, newSignatures, declared, h]

/-- No member of a class is new exactly when the symbol has all signatures that are declared. -/
theorem freshMembers_eq_nil_iff (c : ClassDeclaration) (q : QualifiedName) (known : MemberSignatures) :
    c.freshMembers known q = [] ↔ ∀ signature ∈ (classDecl c).declared, signature ∈ known.of q := by
  rw [← newSignatures_eq_nil_iff, ← map_signature_freshMembers, List.map_eq_nil_iff]

theorem newSignatures_function (f : FunctionDeclaration) (s : Scope) (known : MemberSignatures) :
    (function f).newSignatures (s.qualify f.name) known = if f.isKnown s known then [] else [f.signature] := by
  rw [newSignatures, declared, firsts_cons, firsts_nil, firsts_nil, FunctionDeclaration.isKnown, List.contains_eq_mem]
  simp only [id, decide_eq_true_eq]

theorem isBound_function_iff {f : FunctionDeclaration} :
    (function f).IsBound (s.qualify f.name) known ↔ f.isKnown s known = true := by
  rw [IsBound, declared, FunctionDeclaration.isKnown, List.contains_iff_mem]
  exact ⟨fun h => h.2 _ List.mem_cons_self,
    fun h => ⟨MemberSignatures.contains_of_mem_of h, fun signature hs => List.mem_singleton.mp hs ▸ h⟩⟩

/-! ## One emission -/

theorem put_of_isBound (h : d.IsBound q known) : known.put q (known.of q ++ d.newSignatures q known) = known := by
  rw [newSignatures_eq_nil_iff.mpr h.2, List.append_nil, MemberSignatures.put_of_self h.1]

/-- An emission records the new signatures under the name of the declaration. -/
theorem signatures_eq_put (d : MergedDeclaration) (s : Scope) (known : MemberSignatures) :
    d.signatures s known =
      known.put (s.qualify d.name) (known.of (s.qualify d.name) ++ d.newSignatures (s.qualify d.name) known) := by
  cases d with
  | classDecl c =>
    rw [← map_signature_freshMembers]
    rfl
  | function f =>
    by_cases hf : f.isKnown s known = true
    · rw [name, put_of_isBound (isBound_function_iff.mpr hf), signatures, FunctionDeclaration.signatures, if_pos hf]
    · rw [name, newSignatures_function, if_neg hf, signatures, FunctionDeclaration.signatures, if_neg hf]

/-- An emission records nothing exactly when the declaration is bound. -/
theorem signatures_eq_self_iff : d.signatures s known = known ↔ d.IsBound (s.qualify d.name) known := by
  rw [signatures_eq_put]
  refine ⟨fun h => ⟨?_, newSignatures_eq_nil_iff.mp ?_⟩, put_of_isBound⟩
  · rw [← h]
    exact MemberSignatures.contains_put_self ..
  · have hof : known.of (s.qualify d.name) ++ d.newSignatures (s.qualify d.name) known =
        known.of (s.qualify d.name) := by
      have hread := MemberSignatures.of_put_self known (s.qualify d.name)
        (known.of (s.qualify d.name) ++ d.newSignatures (s.qualify d.name) known)
      rw [← hread, h]
    exact List.append_right_eq_self.mp hof

/-- An emission has no text exactly when the declaration is bound. -/
theorem code_emit_eq_empty_iff_isBound : (d.emit s known).code = "" ↔ d.IsBound (s.qualify d.name) known := by
  cases d with
  | classDecl c =>
    have hstub : (if known.contains (s.qualify c.name) then "" else classStub (s.qualify c.name) c.name) = "" ↔
        known.contains (s.qualify c.name) = true := by
      split
      · next h => exact iff_of_true rfl h
      · next h => exact iff_of_false (by simp [classStub, boundTo, String.append_eq_empty_iff]) h
    rw [emit, ClassDeclaration.emit, String.append_eq_empty_iff, hstub, extensionBlock_eq_empty_iff,
      List.map_eq_nil_iff, freshMembers_eq_nil_iff]
    rfl
  | function f =>
    rw [name, isBound_function_iff, emit, FunctionDeclaration.emit]
    split
    · next h => exact iff_of_true rfl h
    · next h => exact iff_of_false (by simp [boundTo, String.append_eq_empty_iff]) h

theorem imports_emit_of_isBound (h : d.IsBound (s.qualify d.name) known) : (d.emit s known).imports = [] := by
  cases d with
  | classDecl c =>
    have hfresh : c.freshMembers known (s.qualify c.name) = [] := (freshMembers_eq_nil_iff ..).mpr h.2
    rw [emit, ClassDeclaration.emit, hfresh, List.flatMap_nil]
  | function f => rw [emit, FunctionDeclaration.emit, if_pos (isBound_function_iff.mp h)]

theorem of_signatures (d : MergedDeclaration) (s : Scope) (known : MemberSignatures) :
    (d.signatures s known).of (s.qualify d.name) =
      known.of (s.qualify d.name) ++ d.newSignatures (s.qualify d.name) known := by
  rw [signatures_eq_put, MemberSignatures.of_put_self]

/-- An emission leaves the declaration bound. -/
theorem isBound_signatures (d : MergedDeclaration) (s : Scope) (known : MemberSignatures) :
    d.IsBound (s.qualify d.name) (d.signatures s known) := by
  refine ⟨?_, fun signature hs => ?_⟩
  · rw [signatures_eq_put, MemberSignatures.contains_put_self]
  · rw [of_signatures, List.mem_append]
    by_cases hold : signature ∈ known.of (s.qualify d.name)
    · exact .inl hold
    · refine .inr ?_
      rw [← List.map_id (d.newSignatures _ known), newSignatures, mem_map_firsts, List.map_id]
      exact ⟨hs, hold⟩

end MergedDeclaration

/-! ## States -/

/-- What emissions into a file change: its import set, and the signatures that have been bound. -/
structure EmissionState where
  imports : List String
  signatures : MemberSignatures
deriving DecidableEq, Repr

namespace EmissionState

/-- The state after a class or a function has been emitted. -/
def after (st : EmissionState) (s : Scope) (d : MergedDeclaration) : EmissionState :=
  ⟨addImports st.imports (d.emit s st.signatures).imports, d.signatures s st.signatures⟩

/-- The state after classes and functions have been emitted one after the other, each in its scope. -/
def run (st : EmissionState) (steps : List (Scope × MergedDeclaration)) : EmissionState :=
  steps.foldl (fun st step => st.after step.1 step.2) st

/-- The text of classes and functions that are emitted one after the other. -/
def textOf (st : EmissionState) : List (Scope × MergedDeclaration) → String
  | [] => ""
  | step :: steps => (step.2.emit step.1 st.signatures).code ++ textOf (st.after step.1 step.2) steps

/-- What a state gains where only signatures of one symbol are recorded. -/
structure GainsUnder (q : QualifiedName) (st st' : EmissionState) : Prop where
  /-- No import goes away. -/
  imports : st.imports.Sublist st'.imports
  /-- No symbol goes away or changes its place, and the symbol comes last if it is new. -/
  keys : st'.signatures.keys = if q ∈ st.signatures.keys then st.signatures.keys else st.signatures.keys ++ [q]
  /-- The symbol keeps its signatures in their order. -/
  own : st.signatures.of q <+: st'.signatures.of q
  /-- Other symbols keep theirs. -/
  others : ∀ q', q' ≠ q → st'.signatures.get? q' = st.signatures.get? q'

variable {d : MergedDeclaration} {s : Scope} {q : QualifiedName} {st : EmissionState}

/-- **A step**: an emission records signatures under the name of its declaration, and adds imports. -/
theorem gainsUnder_after (st : EmissionState) (s : Scope) (d : MergedDeclaration) :
    GainsUnder (s.qualify d.name) st (st.after s d) := by
  have hput := d.signatures_eq_put s st.signatures
  refine ⟨sublist_addImports _ _, ?_, ?_, fun q' hq' => ?_⟩
  · rw [after, hput, Ledger.keys_put]
  · rw [after, hput]
    exact MemberSignatures.of_prefix_of_put ..
  · rw [after, hput, Ledger.get?_put_of_ne _ _ hq'.symm]

/-- The emission of a bound declaration leaves the state as it is. -/
theorem after_of_isBound (h : d.IsBound (s.qualify d.name) st.signatures) : st.after s d = st := by
  rw [after, MergedDeclaration.imports_emit_of_isBound h, MergedDeclaration.signatures_eq_self_iff.mpr h]
  rfl

/-- What is bound stays bound when something else is emitted. -/
theorem isBound_after (h : d.IsBound q st.signatures) (s' : Scope) (d' : MergedDeclaration) :
    d.IsBound q (st.after s' d').signatures := by
  rw [after, d'.signatures_eq_put]
  refine h.mono ?_ (MemberSignatures.of_prefix_of_put ..).subset
  rw [Ledger.contains_iff]
  exact (Ledger.keys_prefix_keys_put ..).subset ((Ledger.contains_iff _ _).mp h.1)

theorem isBound_run (h : d.IsBound q st.signatures) (later : List (Scope × MergedDeclaration)) :
    d.IsBound q (st.run later).signatures := by
  induction later generalizing st with
  | nil => exact h
  | cons step later ih => exact ih (isBound_after h step.1 step.2)

/-- **A run**: emissions one after the other have no text exactly when they record nothing, and then they leave the
state as it is. -/
theorem textOf_eq_empty_iff (st : EmissionState) (steps : List (Scope × MergedDeclaration)) :
    (st.textOf steps = "" ↔ (st.run steps).signatures = st.signatures) ∧
      (st.textOf steps = "" → st.run steps = st) := by
  induction steps generalizing st with
  | nil => exact ⟨iff_of_true rfl rfl, fun _ => rfl⟩
  | cons step steps ih =>
    obtain ⟨s, d⟩ := step
    by_cases h : d.IsBound (s.qualify d.name) st.signatures
    · have hstep : st.run ((s, d) :: steps) = st.run steps := congrArg (run · steps) (after_of_isBound h)
      have htext : st.textOf ((s, d) :: steps) = st.textOf steps := by
        rw [textOf, after_of_isBound h, MergedDeclaration.code_emit_eq_empty_iff_isBound.mpr h, String.empty_append]
      rw [hstep, htext]
      exact ih st
    · have htext : st.textOf ((s, d) :: steps) ≠ "" := fun he =>
        h (MergedDeclaration.code_emit_eq_empty_iff_isBound.mp (String.append_eq_empty_iff.mp he).1)
      refine ⟨iff_of_false htext fun he => h ?_, fun he => absurd he htext⟩
      -- the declaration is bound at the end, so it was at the start if the signatures are the same
      exact he ▸ isBound_run (d.isBound_signatures s st.signatures) steps

end EmissionState

/-! ## Classes member by member -/

/-- A member is taken up: one whose signature is known is passed over, and any other one adds its text to that of the
extension, its imports and its signature. -/
def EmissionState.takeMember (s : Scope) (q : QualifiedName) (done : String × EmissionState) (m : Member) :
    String × EmissionState :=
  if (done.2.signatures.of q).contains m.signature then done
  else (done.1 ++ s.member m, ⟨addImports done.2.imports (s.imports m.types),
    done.2.signatures.put q (done.2.signatures.of q ++ [m.signature])⟩)

/-- **The loop over members** takes up those that are new. -/
theorem EmissionState.foldl_takeMember (s : Scope) {q : QualifiedName} (members : List Member) (text : String)
    {st : EmissionState} (hq : st.signatures.contains q = true) :
    members.foldl (takeMember s q) (text, st) =
      let fresh := Member.fresh (st.signatures.of q) members
      (text ++ String.join (fresh.map s.member), ⟨addImports st.imports (fresh.flatMap fun m => s.imports m.types),
        st.signatures.put q (st.signatures.of q ++ fresh.map Member.signature)⟩) := by
  induction members generalizing text st with
  | nil =>
    simp [Member.fresh, addImports, MemberSignatures.put_of_self hq]
  | cons m members ih =>
    rw [List.foldl_cons, takeMember, Member.fresh]
    by_cases hm : (st.signatures.of q).contains m.signature = true
    · rw [if_pos hm, if_pos hm, ih text hq]
    · rw [if_neg hm, if_neg hm, ih _ (MemberSignatures.contains_put_self ..)]
      simp only [MemberSignatures.of_put_self, Ledger.put_put, List.map_cons, List.flatMap_cons, String.join_cons,
        addImports_append, String.append_assoc, List.append_assoc, List.singleton_append]

theorem Scope.member_ne_empty (s : Scope) (m : Member) : s.member m ≠ "" := by
  intro h
  cases m with
  | method name params returns =>
    have hend : ");\n" = "" := (String.append_eq_empty_iff.mp h).2
    exact absurd hend (by decide)
  | property name type readonly =>
    have hend : ";\n" = "" := (String.append_eq_empty_iff.mp (String.append_eq_empty_iff.mp h).1).2
    exact absurd hend (by decide)

/-- An extension goes by the joined text of its members, since none of them is empty. -/
theorem extensionBlock_eq_of_forall_ne {className : String} {members : List String} (h : ∀ m ∈ members, m ≠ "") :
    extensionBlock className members =
      if String.join members = "" then "" else extensionBlock className [String.join members] := by
  cases members with
  | nil => rfl
  | cons m members =>
    have hjoin : String.join (m :: members) ≠ "" := by
      simp [String.append_eq_empty_iff, h m List.mem_cons_self]
    rw [if_neg hjoin]
    simp [extensionBlock]

/-- A state in which a symbol has an entry. -/
def EmissionState.opened (st : EmissionState) (q : QualifiedName) : EmissionState :=
  if st.signatures.contains q then st else ⟨st.imports, st.signatures.put q []⟩

/-- An entry without signatures makes no difference but that it is there. -/
theorem EmissionState.opened_spec (st : EmissionState) (q : QualifiedName) :
    (st.opened q).imports = st.imports ∧ (st.opened q).signatures.contains q = true ∧
      (st.opened q).signatures.of q = st.signatures.of q ∧
      ∀ bound, (st.opened q).signatures.put q bound = st.signatures.put q bound := by
  unfold opened
  split
  · next hq => exact ⟨rfl, hq, rfl, fun _ => rfl⟩
  · next hq =>
    have hnone : st.signatures.get? q = none := Option.not_isSome_iff_eq_none.mp hq
    refine ⟨rfl, MemberSignatures.contains_put_self .., ?_, Ledger.put_put _ _ _⟩
    rw [MemberSignatures.of_put_self, MemberSignatures.of, hnone, Option.getD_none]

/-- A class, member by member: its symbol gets an entry if it has none, and then its members are taken up. -/
def ClassDeclaration.memberwise (c : ClassDeclaration) (s : Scope) (st : EmissionState) : String × EmissionState :=
  let q := s.qualify c.name
  let done := c.members.foldl (EmissionState.takeMember s q) ("", st.opened q)
  ((if st.signatures.contains q then "" else classStub q c.name)
    ++ (if done.1 = "" then "" else extensionBlock c.name [done.1]), done.2)

/-- **A class that is gone through member by member** has the same emission. -/
theorem ClassDeclaration.memberwise_eq (c : ClassDeclaration) (s : Scope) (st : EmissionState) :
    c.memberwise s st = ((c.emit s st.signatures).code, st.after s (.classDecl c)) := by
  obtain ⟨himports, hcontains, hof, hput⟩ := st.opened_spec (s.qualify c.name)
  let texts := (c.freshMembers st.signatures (s.qualify c.name)).map s.member
  have hdone : c.members.foldl (EmissionState.takeMember s (s.qualify c.name)) ("", st.opened (s.qualify c.name)) =
      (String.join texts, st.after s (.classDecl c)) := by
    have hloop := EmissionState.foldl_takeMember s c.members "" hcontains
    simp only [himports, hof, hput, String.empty_append] at hloop
    exact hloop
  have hextension : extensionBlock c.name texts =
      if String.join texts = "" then "" else extensionBlock c.name [String.join texts] :=
    extensionBlock_eq_of_forall_ne (List.forall_mem_map.mpr fun m _ => s.member_ne_empty m)
  rw [memberwise, hdone, ← hextension]
  rfl

/-- A function, unless it is known. -/
def FunctionDeclaration.unlessKnown (f : FunctionDeclaration) (s : Scope) (st : EmissionState) :
    String × EmissionState :=
  if f.isKnown s st.signatures then ("", st)
  else ((f.emit s st.signatures).code, ⟨addImports st.imports (s.imports f.types), f.signatures s st.signatures⟩)

/-- The text and the state as they come about, one member after the other. -/
def MergedDeclaration.stepwise (d : MergedDeclaration) (s : Scope) (st : EmissionState) : String × EmissionState :=
  match d with
  | .classDecl c => c.memberwise s st
  | .function f => f.unlessKnown s st

/-- **One step after the other** leads to the same text and the same state. -/
theorem MergedDeclaration.stepwise_eq (d : MergedDeclaration) (s : Scope) (st : EmissionState) :
    d.stepwise s st = ((d.emit s st.signatures).code, st.after s d) := by
  cases d with
  | classDecl c => exact c.memberwise_eq s st
  | function f =>
    rw [stepwise, FunctionDeclaration.unlessKnown]
    by_cases hf : f.isKnown s st.signatures = true
    · have hbound := isBound_function_iff.mpr hf
      rw [if_pos hf, EmissionState.after_of_isBound hbound, code_emit_eq_empty_iff_isBound.mpr hbound]
    · rw [if_neg hf, EmissionState.after, emit, FunctionDeclaration.emit, if_neg hf]
      rfl

/-! ## Records -/

namespace OutputRecord

variable {d : MergedDeclaration} {s : Scope}

/-- What emissions into a record change. -/
def state (r : OutputRecord) : EmissionState := ⟨r.imports, r.signatures⟩

/-- A record takes in what an emission gives. Its text goes last, and no import is lost where a chunk is dropped for
want of a text. -/
theorem state_add (r : OutputRecord) (s : Scope) (d : MergedDeclaration) :
    (r.add s d.declaration).state = r.state.after s d ∧
      (r.add s d.declaration).code = r.code ++ (d.emit s r.signatures).code := by
  have hadd : r.add s d.declaration =
      { r.push (d.emit s r.signatures) with signatures := d.signatures s r.signatures } := by
    cases d <;> rfl
  rw [hadd]
  by_cases h : (d.emit s r.signatures).code = ""
  · have hbound := MergedDeclaration.code_emit_eq_empty_iff_isBound.mp h
    have hsame : r.state.after s d = r.state := EmissionState.after_of_isBound hbound
    rw [push, if_pos (String.isEmpty_iff.mpr h), h, MergedDeclaration.signatures_eq_self_iff.mpr hbound]
    exact ⟨hsame.symm, String.append_empty.symm⟩
  · rw [push, if_neg (mt String.isEmpty_iff.mp h)]
    refine ⟨?_, ?_⟩
    · simp only [state, EmissionState.after, imports, List.flatMap_append, List.flatMap_singleton, sortedTexts_append]
    · simp [code]

/-- A record takes in what a run of emissions gives. -/
theorem state_foldl_add (r : OutputRecord) (steps : List (Scope × MergedDeclaration)) :
    let r' := steps.foldl (fun r step => r.add step.1 step.2.declaration) r
    r'.state = r.state.run steps ∧ r'.code = r.code ++ r.state.textOf steps := by
  induction steps generalizing r with
  | nil => exact ⟨rfl, String.append_empty.symm⟩
  | cons step steps ih =>
    obtain ⟨hstate, hcode⟩ := r.state_add step.1 step.2
    obtain ⟨hrest, htext⟩ := ih (r.add step.1 step.2.declaration)
    rw [hstate] at hrest htext
    refine ⟨hrest, ?_⟩
    rw [hcode, String.append_assoc] at htext
    exact htext

end OutputRecord

/-! ## What an emission without text means -/

/-- **An emission without text changes nothing.** Take any class or function, any scope, any import set and any
signatures.

- An emission has no text exactly when it records no signature, and then it adds no import. This is so when the symbol
  has signatures and all that are declared are among them.
- Otherwise it only adds: to its own symbol the declared signatures that this does not have, once each and behind the
  others, and imports to the set. Nothing that is there goes away or changes its place.
- The same emission has no text and changes nothing when it is repeated, right away or after any further emissions.
- The text and the state are those that come about when a class is gone through member by member.
- A record that takes in a chunk has the import set and the signatures that the emission leaves, and the text behind its
  own. So it loses no import by dropping a chunk that has no text.

All this goes for emissions one after the other, too: together they have no text exactly when they record no signature,
and then they change nothing; and a record that takes in their chunks has what they leave. -/
theorem MergedDeclaration.emission_empty_iff_unchanged (d : MergedDeclaration) (s : Scope) :
    let q := s.qualify d.name
    (∀ st : EmissionState,
      let text := (d.emit s st.signatures).code
      (text = "" ↔ (st.after s d).signatures = st.signatures) ∧ (text = "" → (st.after s d).imports = st.imports) ∧
      (text = "" ↔ d.IsBound q st.signatures) ∧
      EmissionState.GainsUnder q st (st.after s d) ∧
      (st.after s d).signatures.of q = st.signatures.of q ++ d.newSignatures q st.signatures ∧
      d.stepwise s st = (text, st.after s d) ∧
      ∀ further, let st' := (st.after s d).run further
        (d.emit s st'.signatures).code = "" ∧ st'.after s d = st') ∧
    (∀ r : OutputRecord, (r.add s d.declaration).state = r.state.after s d ∧
      (r.add s d.declaration).code = r.code ++ (d.emit s r.signatures).code) ∧
    ∀ further, let steps := (s, d) :: further
      (∀ st : EmissionState, (st.textOf steps = "" ↔ (st.run steps).signatures = st.signatures) ∧
        (st.textOf steps = "" → st.run steps = st)) ∧
      ∀ r : OutputRecord, let r' := steps.foldl (fun r step => r.add step.1 step.2.declaration) r
        r'.state = r.state.run steps ∧ r'.code = r.code ++ r.state.textOf steps := by
  intro q
  refine ⟨fun st => ?_, fun r => r.state_add s d, fun further => ?_⟩
  · intro text
    have hempty : text = "" ↔ d.IsBound q st.signatures := code_emit_eq_empty_iff_isBound
    refine ⟨hempty.trans signatures_eq_self_iff.symm, fun htext => ?_, hempty, EmissionState.gainsUnder_after st s d,
      d.of_signatures s st.signatures, d.stepwise_eq s st, fun further => ?_⟩
    · rw [EmissionState.after_of_isBound (hempty.mp htext)]
    · intro st'
      have hbound : d.IsBound q st'.signatures :=
        EmissionState.isBound_run (d.isBound_signatures s st.signatures) further
      exact ⟨code_emit_eq_empty_iff_isBound.mpr hbound, EmissionState.after_of_isBound hbound⟩
  · intro steps
    exact ⟨fun st => st.textOf_eq_empty_iff steps, fun r => r.state_foldl_add steps⟩

/-- A file with a view. -/
def viewFile : DeclarationFile := ⟨⟨"in/view.d.ts"⟩, [.namespaceItem "ol" [.declaration (.classDecl ⟨"View", []⟩)]]⟩

/-- A class that has one method twice. -/
def mapClass : MergedDeclaration :=
  .classDecl ⟨"Map", [.method "getView" [] (some (.reference "View")), .method "getView" [] none]⟩

/-- The first emission of a class records a signature and adds an import, the second one changes nothing. -/
theorem MergedDeclaration.emission_empty_iff_unchanged_map :
    let s : Scope := ⟨SymbolTable.build [viewFile] {}, ⟨"in/map.d.ts"⟩, ["ol"]⟩
    let st : EmissionState := ⟨["./ol/layer.dart"], .empty⟩
    let st' := st.after s mapClass
    (mapClass.emit s st.signatures).code ≠ "" ∧ st'.signatures ≠ st.signatures ∧
      mapClass.stepwise s st' = ("", st') ∧ st'.textOf [(s, mapClass), (s, mapClass)] = "" ∧
      st'.signatures.of ⟨"ol.Map"⟩ = ["getView()"] ∧ st'.imports = ["./ol/layer.dart", "./ol/view.dart"] ∧
      (mapClass.emit s st'.signatures).code = "" ∧ (st'.after s mapClass).signatures = st'.signatures ∧
      (st'.after s mapClass).imports = st'.imports ∧
      ((({} : OutputRecord).add s mapClass.declaration).add s mapClass.declaration).state.imports =
        ["./ol/view.dart"] := by
  intro s st st'
  obtain ⟨hstates, hrecords, hruns⟩ := emission_empty_iff_unchanged mapClass s
  have hfirst : (mapClass.emit s st.signatures).code ≠ "" := by decide
  have hagain : (mapClass.emit s st'.signatures).code = "" ∧ st'.after s mapClass = st' :=
    (hstates st).2.2.2.2.2.2 []
  obtain ⟨hempty, himports, _, _, _, hstepwise, _⟩ := hstates st'
  rw [hagain.1, hagain.2] at hstepwise
  have htwice : st'.run [(s, mapClass), (s, mapClass)] = st' := by
    rw [EmissionState.run, List.foldl_cons, hagain.2]
    exact hagain.2
  have hnothing : st'.textOf [(s, mapClass), (s, mapClass)] = "" :=
    ((hruns [(s, mapClass)]).1 st').1.mpr (congrArg EmissionState.signatures htwice)
  refine ⟨hfirst, mt (hstates st).1.mpr hfirst, hstepwise, hnothing, by decide, by decide, hagain.1,
    hempty.mp hagain.1, himports hagain.1, ?_⟩
  rw [(hrecords _).1, (hrecords _).1]
  decide

end InteropBindings
