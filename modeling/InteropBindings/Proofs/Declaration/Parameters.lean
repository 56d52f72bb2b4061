import InteropBindings.Binding.Signature
import InteropBindings.Declaration.Lowering

/-!
# Parameters layer by layer

A parameter is written as layers around a core: the rest of the arguments, or a default value, in any order and number,
around a name or a destructuring. In a binding it keeps its position. Its name is that of the core, its type the one
that is written farthest outside, and it may be null when a default value or a mark on the core says so
(`Scope.params_ofPattern`).
-/

namespace InteropBindings

open Text

namespace Source

/-! ## Layers and core -/

/-- What stands around a parameter. -/
inductive Layer
  /-- The rest of the arguments, perhaps with a type. -/
  | rest (ascription : Option TypeExpr)
  /-- A default value. -/
  | withDefault
deriving DecidableEq, Repr

/-- The pattern of a layer around another pattern. -/
def Layer.around : Layer → Pattern → Pattern
  | .rest ascription, argument => .rest argument ascription
  | .withDefault, target => .withDefault target

/-- The type that a layer gives. A default value gives none. -/
def Layer.ascription : Layer → Option TypeExpr
  | .rest ascription => ascription
  | .withDefault => none

/-- What is reached through all layers. -/
inductive Core
  | ident (name : String) (ascription : Option TypeExpr) (isOptional : Bool)
  | array (ascription : Option TypeExpr) (isOptional : Bool)
  | object (ascription : Option TypeExpr) (isOptional : Bool)
  | other
deriving DecidableEq, Repr

namespace Core

/-- The pattern of a core without layers. -/
def pattern : Core → Pattern
  | .ident name ascription isOptional => .ident name ascription isOptional
  | .array ascription isOptional => .array ascription isOptional
  | .object ascription isOptional => .object ascription isOptional
  | .other => .other

/-- The name of a core. What is destructured has none of its own, nor has anything else but a name. -/
def name : Core → String
  | .ident name _ _ => name
  | .array .. | .object .. => "destructured"
  | .other => "unknown"

/-- The type that is written behind a core. -/
def ascription : Core → Option TypeExpr
  | .ident _ ascription _ | .array ascription _ | .object ascription _ => ascription
  | .other => none

/-- Whether a core has the mark of what may be left out. -/
def isOptional : Core → Bool
  | .ident _ _ isOptional | .array _ isOptional | .object _ isOptional => isOptional
  | .other => false

end Core

/-- A parameter taken apart: its layers from the outside in, and its core. -/
structure Nesting where
  layers : List Layer
  core : Core
deriving DecidableEq, Repr

namespace Nesting

/-- The pattern with some layers around a core. -/
def pattern (n : Nesting) : Pattern := n.layers.foldr Layer.around n.core.pattern

/-- The type of a parameter: the one of the outermost layer that gives one, or else that of the core. -/
def ascription (n : Nesting) : Option TypeExpr := (n.layers.findSome? Layer.ascription).or n.core.ascription

/-- Whether a parameter may be null: one of its layers is a default value, or its core is marked. -/
def isNullable (n : Nesting) : Bool := n.layers.contains .withDefault || n.core.isOptional

/-- One more layer on the outside. -/
def within (n : Nesting) (layer : Layer) : Nesting := { n with layers := layer :: n.layers }

/-- A type given on the outside goes before all others. -/
theorem ascription_within (n : Nesting) (layer : Layer) :
    (n.within layer).ascription = layer.ascription.or n.ascription := by
  unfold ascription within
  cases h : layer.ascription with
  | none => simp [h]
  | some t => simp [h]

/-- A default value on the outside makes a parameter nullable, and the rest of the arguments leaves it as it is. -/
theorem isNullable_within (n : Nesting) (layer : Layer) :
    (n.within layer).isNullable = (layer == .withDefault || n.isNullable) := by
  unfold isNullable within
  rw [List.contains_cons, Bool.or_assoc, BEq.comm]

end Nesting

/-- The layers and the core of a parameter. -/
def Pattern.nesting : Pattern → Nesting
  | .rest argument ascription => argument.nesting.within (.rest ascription)
  | .withDefault target => target.nesting.within .withDefault
  | .ident name ascription isOptional => ⟨[], .ident name ascription isOptional⟩
  | .array ascription isOptional => ⟨[], .array ascription isOptional⟩
  | .object ascription isOptional => ⟨[], .object ascription isOptional⟩
  | .other => ⟨[], .other⟩

/-- Nothing of a parameter is lost. -/
theorem Pattern.pattern_nesting (p : Pattern) : p.nesting.pattern = p := by
  induction p with
  | rest argument ascription ih => exact congrArg (Pattern.rest · ascription) ih
  | withDefault target ih => exact congrArg Pattern.withDefault ih
  | _ => rfl

/-- Layers around a core are found again. -/
theorem Nesting.nesting_pattern (n : Nesting) : n.pattern.nesting = n := by
  obtain ⟨layers, core⟩ := n
  induction layers with
  | nil => cases core <;> rfl
  | cons layer layers ih =>
    have hstep : (Nesting.mk (layer :: layers) core).pattern.nesting =
        (Nesting.mk layers core).pattern.nesting.within layer := by
      cases layer <;> rfl
    rw [hstep, ih]
    rfl

end Source

/-! ## Entries -/

/-- A parameter is read off its layers and its core. -/
theorem Param.ofPattern_eq (p : Source.Pattern) :
    Param.ofPattern p = ⟨p.nesting.core.name, p.nesting.ascription.map TypeNode.ofExpr, p.nesting.isNullable⟩ := by
  induction p with
  | rest argument ascription ih =>
    rw [Source.Pattern.nesting, Source.Nesting.ascription_within, Source.Nesting.isNullable_within]
    cases ascription with
    | none => rw [ofPattern, ih]; rfl
    | some t => rw [ofPattern, ih]; rfl
  | withDefault target ih =>
    rw [Source.Pattern.nesting, Source.Nesting.ascription_within, Source.Nesting.isNullable_within, ofPattern, ih]
    rfl
  | _ => simp [ofPattern, Source.Pattern.nesting, Source.Nesting.ascription, Source.Nesting.isNullable,
      Source.Core.name, Source.Core.ascription, Source.Core.isOptional]

/-- **Parameters keep their position, name and nullability.** The parameters of a binding are one entry for each written
parameter, in order and with commas between them. An entry has the type of the outermost rest layer that gives one, or
else that of the core, or else an opaque object; a question mark exactly when a default value is among the layers or the
core is marked; and the name of the core. The layers may be nested in any order and number, and there is just one way to
read them off. -/
theorem Scope.params_ofPattern (s : Scope) (patterns : List Source.Pattern) :
    s.params (patterns.map Param.ofPattern) = listed ", " (patterns.map fun p =>
      (match (p.nesting.layers.findSome? Source.Layer.ascription).or p.nesting.core.ascription with
        | some type => s.typeName (.ofExpr type)
        | none => "JSObject") ++
      (if .withDefault ∈ p.nesting.layers ∨ p.nesting.core.isOptional then "?" else "") ++ " " ++ p.nesting.core.name) ∧
    (∀ p : Source.Pattern, p.nesting.pattern = p) ∧ ∀ n : Source.Nesting, n.pattern.nesting = n := by
  refine ⟨?_, Source.Pattern.pattern_nesting, Source.Nesting.nesting_pattern⟩
  rw [params, List.map_map]
  refine congrArg (listed ", ") (List.map_congr_left fun p _ => ?_)
  have hnullable : p.nesting.isNullable = true ↔ .withDefault ∈ p.nesting.layers ∨ p.nesting.core.isOptional := by
    rw [Source.Nesting.isNullable, Bool.or_eq_true, List.contains_iff_mem]
  have htype : s.typeName? (p.nesting.ascription.map TypeNode.ofExpr) =
      match (p.nesting.layers.findSome? Source.Layer.ascription).or p.nesting.core.ascription with
        | some type => s.typeName (.ofExpr type)
        | none => "JSObject" := by
    rw [Source.Nesting.ascription]
    cases (p.nesting.layers.findSome? Source.Layer.ascription).or p.nesting.core.ascription <;> rfl
  rw [Function.comp_apply, Param.ofPattern_eq, Scope.param, htype]
  simp only [hnullable]

/-- The outer of two types for the rest of the arguments goes before the inner one and the type of the name, and the
default value between them makes the parameter nullable. -/
example :
    let s : Scope := ⟨.build [] {}, ⟨"in/a.d.ts"⟩, []⟩
    let name : Source.Pattern := .ident "items" (some (.keyword .boolean)) false
    let nested : Source.Pattern :=
      .rest (.withDefault (.rest name (some (.keyword .number)))) (some (.array (.keyword .string)))
    s.params ([nested, .withDefault (.object none false), .other].map Param.ofPattern) =
      "JSArray<JSString>? items, JSObject? destructured, JSObject unknown" := by
  decide

end InteropBindings
