import InteropBindings.Binding.Signature
import InteropBindings.Proofs.Text.Segments

/-!
# What a signature tells of a member

A signature is written without escapes: a callable is its name and the names of its parameters between parentheses, with
commas between them, and a property is its name behind a word. The name of a callable may be any text, and is found
again all the same:

- it ends at the last parenthesis that opens, since the parameters hold none (`Text.append_cons_inj`);
- parameters without commas are cut at the commas (`Text.segments_listed`), and no parameters are told from one since
  none is empty (`Text.listed_inj`).

So signatures of plain shapes differ when the shapes do (`Shape.signature_inj`).
-/

namespace InteropBindings

open Text

namespace Text

/-! ## Texts that are put together -/

/-- A character that is not behind itself divides a text in one way. -/
theorem append_cons_inj {c : Char} {xs ys xs' ys' : List Char} (h : c ∉ ys) (h' : c ∉ ys') :
    xs ++ c :: ys = xs' ++ c :: ys' ↔ xs = xs' ∧ ys = ys' := by
  constructor
  · intro he
    have hsegments := congrArg (segmentsOf c) he
    rw [segmentsOf_append_cons, segmentsOf_append_cons, segmentsOf_of_not_mem h, segmentsOf_of_not_mem h'] at hsegments
    obtain ⟨hfront, hback⟩ := List.append_inj' hsegments rfl
    refine ⟨?_, List.singleton_inj.mp hback⟩
    rw [← joinWith_segmentsOf c xs, hfront, joinWith_segmentsOf]
  · rintro ⟨rfl, rfl⟩
    rfl

/-- A character of listed texts stands in one of them or between them. -/
theorem not_mem_listed {c : Char} {sep : String} (hsep : c ∉ sep.toList) {parts : List String}
    (h : ∀ part ∈ parts, c ∉ part.toList) : c ∉ (listed sep parts).toList := by
  induction parts with
  | nil => exact List.not_mem_nil
  | cons first rest ih =>
    have hfirst : c ∉ first.toList := h first List.mem_cons_self
    cases rest with
    | nil => exact hfirst
    | cons second rest =>
      have hrest := ih fun part hpart => h part (List.mem_cons_of_mem _ hpart)
      simp [listed, hfirst, hsep, hrest]

/-- Texts without commas are cut at the commas between them. A blank stays in front of each but the first. -/
theorem segments_listed {first : String} {rest : List String} (h : ∀ part ∈ first :: rest, ',' ∉ part.toList) :
    segments ',' (listed ", " (first :: rest)) = first :: rest.map (" " ++ ·) := by
  induction rest generalizing first with
  | nil => exact segments_of_not_mem (h first List.mem_cons_self)
  | cons second rest ih =>
    have hblank : ∀ part ∈ (" " ++ second) :: rest, ',' ∉ part.toList := by
      intro part hpart
      rcases List.mem_cons.mp hpart with rfl | hpart
      · simpa using h second (by simp)
      · exact h part (by simp [hpart])
    have hlisted : listed ", " (first :: second :: rest) =
        first ++ String.ofList [','] ++ listed ", " ((" " ++ second) :: rest) := by
      cases rest <;> simp [listed, ← String.toList_inj]
    rw [hlisted, segments_append, segments_of_not_mem (h first List.mem_cons_self), ih hblank]
    rfl

/-- **Texts are told from their list** when none is empty or holds a comma. -/
theorem listed_inj {parts parts' : List String} (h : ∀ part ∈ parts, part ≠ "" ∧ ',' ∉ part.toList)
    (h' : ∀ part ∈ parts', part ≠ "" ∧ ',' ∉ part.toList) :
    listed ", " parts = listed ", " parts' ↔ parts = parts' := by
  refine ⟨fun he => ?_, congrArg _⟩
  have hnil : segments ',' "" = [""] := rfl
  have hsegments := congrArg (segments ',') he
  cases parts with
  | nil =>
    cases parts' with
    | nil => rfl
    | cons first rest =>
      rw [segments_listed fun part hpart => (h' part hpart).2, listed, hnil] at hsegments
      exact absurd (List.cons.inj hsegments).1.symm (h' first List.mem_cons_self).1
  | cons first rest =>
    rw [segments_listed fun part hpart => (h part hpart).2] at hsegments
    cases parts' with
    | nil =>
      rw [listed, hnil] at hsegments
      exact absurd (List.cons.inj hsegments).1 (h first List.mem_cons_self).1
    | cons first' rest' =>
      rw [segments_listed fun part hpart => (h' part hpart).2] at hsegments
      obtain ⟨hfirst, hrest⟩ := List.cons.inj hsegments
      have hblank : ∀ part part' : String, " " ++ part = " " ++ part' → part = part' := fun _ _ =>
        (String.append_right_inj " ").mp
      rw [hfirst, (List.map_inj_right hblank).mp hrest]

end Text

/-! ## Shapes -/

/-- A name of a parameter that a signature shows from end to end: it is not empty, and holds neither a parenthesis that
opens nor a comma. -/
def IsPlainParam (name : String) : Prop := name ≠ "" ∧ '(' ∉ name.toList ∧ ',' ∉ name.toList

instance : DecidablePred IsPlainParam := fun name =>
  inferInstanceAs (Decidable (name ≠ "" ∧ '(' ∉ name.toList ∧ ',' ∉ name.toList))

/-- A parameter of which only the name is known. -/
def Param.ofName (name : String) : Param := { name := name }

theorem Param.map_name_ofName (names : List String) : (names.map ofName).map Param.name = names := by
  simp [ofName, Function.comp_def]

/-- What tells a member or a function apart, whatever its types are: the names that are written in its signature. -/
inductive Shape
  | callable (name : String) (params : List String)
  | property (name : String)
deriving DecidableEq, Repr

namespace Shape

/-- The signature of a shape. -/
def signature : Shape → String
  | .callable name params => callSignature name (params.map Param.ofName)
  | .property name => propertySignature name

/-- Whether a signature shows where the names end. The name of a callable may be any text, and that of a property must
not hold a parenthesis that opens. -/
def IsPlain : Shape → Prop
  | .callable _ params => ∀ p ∈ params, IsPlainParam p
  | .property name => '(' ∉ name.toList

instance : DecidablePred IsPlain
  | .callable _ params => inferInstanceAs (Decidable (∀ p ∈ params, IsPlainParam p))
  | .property name => inferInstanceAs (Decidable ('(' ∉ name.toList))

end Shape

/-- The shape of a member. -/
def Member.shape : Member → Shape
  | .method name params _ => .callable name (params.map Param.name)
  | .property name _ _ => .property name

/-- The shape of a function. -/
def FunctionDeclaration.shape (f : FunctionDeclaration) : Shape := .callable f.name (f.params.map Param.name)

/-- The signature of a callable is that of its shape, so the types of its parameters do not matter. -/
theorem Shape.signature_callable (name : String) (params : List Param) :
    (Shape.callable name (params.map Param.name)).signature = callSignature name params := by
  rw [signature, callSignature, Param.map_name_ofName, callSignature]

theorem Member.signature_shape (m : Member) : m.shape.signature = m.signature := by
  cases m with
  | method name params returns => exact Shape.signature_callable name params
  | property name type readonly => rfl

theorem FunctionDeclaration.signature_shape (f : FunctionDeclaration) : f.shape.signature = f.signature :=
  Shape.signature_callable f.name f.params

/-! ## Signatures of plain shapes -/

/-- **A callable is told from its signature**: the name, and the names of the parameters. -/
theorem callSignature_inj {name name' : String} {params params' : List Param} (h : ∀ p ∈ params, IsPlainParam p.name)
    (h' : ∀ p ∈ params', IsPlainParam p.name) :
    callSignature name params = callSignature name' params' ↔
      name = name' ∧ params.map Param.name = params'.map Param.name := by
  have hsplit : ∀ (n : String) (ps : List Param),
      (callSignature n ps).toList = n.toList ++ '(' :: ((listed ", " (ps.map Param.name)).toList ++ [')']) := by
    intro n ps
    simp [callSignature]
  have hparen : ∀ ps : List Param, (∀ p ∈ ps, IsPlainParam p.name) →
      '(' ∉ (listed ", " (ps.map Param.name)).toList ++ [')'] := by
    intro ps hps
    have hlisted : '(' ∉ (listed ", " (ps.map Param.name)).toList :=
      not_mem_listed (by decide) (List.forall_mem_map.mpr fun p hp => (hps p hp).2.1)
    simp [hlisted]
  have hcomma : ∀ ps : List Param, (∀ p ∈ ps, IsPlainParam p.name) → ∀ n ∈ ps.map Param.name, n ≠ "" ∧ ',' ∉ n.toList :=
    fun ps hps => List.forall_mem_map.mpr fun p hp => ⟨(hps p hp).1, (hps p hp).2.2⟩
  rw [← String.toList_inj, hsplit, hsplit, append_cons_inj (hparen params h) (hparen params' h'), String.toList_inj,
    List.append_left_inj, String.toList_inj, listed_inj (hcomma params h) (hcomma params' h')]

/-- **A property is told from its signature.** -/
theorem propertySignature_inj {name name' : String} : propertySignature name = propertySignature name' ↔ name = name' :=
  String.append_right_inj "get "

/-- **A property is told from a callable** by the parenthesis. -/
theorem propertySignature_ne_callSignature {name : String} (h : '(' ∉ name.toList) (name' : String)
    (params : List Param) :
    propertySignature name ≠ callSignature name' params := by
  intro he
  have hmem : '(' ∈ (propertySignature name).toList := by
    rw [he]
    simp [callSignature]
  simp [propertySignature, h] at hmem

/-- **Signatures of plain shapes** differ when the shapes do. -/
theorem Shape.signature_inj {shape shape' : Shape} (h : shape.IsPlain) (h' : shape'.IsPlain) :
    shape.signature = shape'.signature ↔ shape = shape' := by
  cases shape with
  | callable name params =>
    cases shape' with
    | callable name' params' =>
      have hparams : callSignature name (params.map Param.ofName) =
        callSignature name' (params'.map Param.ofName) ↔ _ :=
        callSignature_inj (List.forall_mem_map.mpr h) (List.forall_mem_map.mpr h')
      rw [signature, signature, hparams, Param.map_name_ofName, Param.map_name_ofName, Shape.callable.injEq]
    | property name' => exact iff_of_false (propertySignature_ne_callSignature h' _ _).symm nofun
  | property name =>
    cases shape' with
    | callable name' params' => exact iff_of_false (propertySignature_ne_callSignature h _ _) nofun
    | property name' => rw [signature, signature, propertySignature_inj, Shape.property.injEq]

end InteropBindings
