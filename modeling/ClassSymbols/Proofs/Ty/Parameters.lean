import ClassSymbols.Ty.Substitution
import Mathlib.Tactic.Common

/-!
# Parameters of types

What a replacement of parameters makes of a type depends on the parameters that the type refers to,
and on nothing else. One replacement after another is a replacement again.

## Main definitions

* `Ty.parameters` — the parameters that a type refers to.
* `Ty.andThen` — one replacement after another.

## Main statements

* `Ty.mapParameters_congr` — replacements that agree on the parameters of a type agree on the type.
* `Ty.mapParameters_mapParameters` — one replacement after another is a replacement.
* `Ty.mem_parameters_mapParameters` — the parameters that remain.
-/

namespace ClassSymbols

def TypeHead.parameters : TypeHead → List ParameterRef
  | .classifier _ => []
  | .parameter ref => [ref]

mutual
def Ty.parameters : Ty → List ParameterRef
  | .mk head arguments _ => head.parameters ++ TypeArgument.parametersList arguments

def TypeArgument.parametersList : List TypeArgument → List ParameterRef
  | [] => []
  | argument :: rest => TypeArgument.parameters argument ++ TypeArgument.parametersList rest

def TypeArgument.parameters : TypeArgument → List ParameterRef
  | .star => []
  | .projected _ type => Ty.parameters type
end

namespace TypeArgument

theorem mem_parameters_iff {argument : TypeArgument} {ref : ParameterRef} :
    ref ∈ argument.parameters ↔
      ∃ variance type, argument = .projected variance type ∧ ref ∈ type.parameters := by
  cases argument with
  | star => simp [parameters]
  | projected variance type => simp [parameters]

theorem mem_parametersList_iff {arguments : List TypeArgument} {ref : ParameterRef} :
    ref ∈ parametersList arguments ↔
      ∃ variance type, .projected variance type ∈ arguments ∧ ref ∈ type.parameters := by
  induction arguments with
  | nil => simp [parametersList]
  | cons argument rest ih =>
    rw [parametersList, List.mem_append, ih, mem_parameters_iff]
    simp only [List.mem_cons]
    grind

end TypeArgument

namespace Ty

variable {f g : ParameterRef → Option Ty} {type : Ty} {ref : ParameterRef}

theorem mem_parameters_mk {head : TypeHead} {arguments : List TypeArgument} {nullable : Bool} :
    ref ∈ (Ty.mk head arguments nullable).parameters ↔ ref ∈ head.parameters ∨
      ∃ variance type, .projected variance type ∈ arguments ∧ ref ∈ type.parameters := by
  rw [parameters, List.mem_append, TypeArgument.mem_parametersList_iff]

@[simp] theorem parameters_makeNullable (type : Ty) :
    type.makeNullable.parameters = type.parameters := by
  obtain ⟨head, arguments, nullable⟩ := type
  rfl

theorem mapParameters_mk (f : ParameterRef → Option Ty) (head : TypeHead)
    (arguments : List TypeArgument) (nullable : Bool) :
    (Ty.mk head arguments nullable).mapParameters f =
      match head.replacement? f with
      | some replacement => if nullable then replacement.makeNullable else replacement
      | none => .mk head (arguments.map (TypeArgument.mapParameters f)) nullable := by
  cases replaced : head.replacement? f <;>
    simp only [mapParameters, replaced, TypeArgument.mapParametersList_eq_map]

/-- Replacements that make the same of the types of arguments make the same of the arguments. -/
theorem mapArguments_congr {arguments : List TypeArgument}
    (each : ∀ variance type, .projected variance type ∈ arguments →
      type.mapParameters f = type.mapParameters g) :
    arguments.map (TypeArgument.mapParameters f) =
      arguments.map (TypeArgument.mapParameters g) := by
  refine List.map_congr_left fun argument ha => ?_
  cases argument with
  | star => rfl
  | projected variance type =>
    exact congrArg (TypeArgument.projected variance) (each variance type ha)

/-- Replacements that agree on the parameters of a type make the same of it. -/
theorem mapParameters_congr (agree : ∀ ref ∈ type.parameters, f ref = g ref) :
    type.mapParameters f = type.mapParameters g := by
  induction type using Ty.induction with
  | step head arguments nullable ih =>
    have heads : head.replacement? f = head.replacement? g := by
      cases head with
      | classifier => rfl
      | parameter ref => exact agree ref (mem_parameters_mk.2 (.inl List.mem_cons_self))
    have others : arguments.map (TypeArgument.mapParameters f) =
        arguments.map (TypeArgument.mapParameters g) :=
      mapArguments_congr fun variance type ha => ih variance type ha fun ref hr =>
        agree ref (mem_parameters_mk.2 (.inr ⟨variance, type, ha, hr⟩))
    rw [mapParameters_mk, mapParameters_mk, heads, others]

theorem mapParameters_makeNullable (type : Ty) :
    type.makeNullable.mapParameters g = (type.mapParameters g).makeNullable := by
  obtain ⟨head, arguments, nullable⟩ := type
  rw [makeNullable, withNullable, head_mk, arguments_mk, mapParameters_mk, mapParameters_mk]
  cases head.replacement? g with
  | none => rfl
  | some replacement => cases nullable <;> rfl

/-- The replacement that first replaces by `f`, and then what that brings or leaves by `g`. -/
def andThen (f g : ParameterRef → Option Ty) (ref : ParameterRef) : Option Ty :=
  match f ref with
  | some replacement => some (replacement.mapParameters g)
  | none => g ref

/-- One replacement after another is a replacement. -/
theorem mapParameters_mapParameters (type : Ty) :
    (type.mapParameters f).mapParameters g = type.mapParameters (andThen f g) := by
  induction type using Ty.induction with
  | step head arguments nullable ih =>
    have others :
        (arguments.map (TypeArgument.mapParameters f)).map (TypeArgument.mapParameters g) =
          arguments.map (TypeArgument.mapParameters (andThen f g)) := by
      rw [List.map_map]
      refine List.map_congr_left fun argument ha => ?_
      cases argument with
      | star => rfl
      | projected variance type =>
        exact congrArg (TypeArgument.projected variance) (ih variance type ha)
    rw [mapParameters_mk, mapParameters_mk]
    cases head with
    | classifier id => simp only [TypeHead.replacement?, mapParameters_mk, others]
    | parameter ref =>
      cases replaced : f ref with
      | none => simp only [TypeHead.replacement?, andThen, replaced, mapParameters_mk, others]
      | some replacement =>
        cases nullable <;>
          simp [TypeHead.replacement?, andThen, replaced, mapParameters_makeNullable]

theorem mapParameters_none (type : Ty) : type.mapParameters (fun _ => none) = type := by
  induction type using Ty.induction with
  | step head arguments nullable ih =>
    have others : arguments.map (TypeArgument.mapParameters fun _ => none) = arguments := by
      refine (List.map_congr_left fun argument ha => ?_).trans (List.map_id _)
      cases argument with
      | star => rfl
      | projected variance type =>
        exact congrArg (TypeArgument.projected variance) (ih variance type ha)
    cases head <;> simp [mapParameters_mk, TypeHead.replacement?, others]

/-- A parameter that remains was there and was not replaced, or came with a replacement. -/
theorem mem_parameters_mapParameters (h : ref ∈ (type.mapParameters f).parameters) :
    (ref ∈ type.parameters ∧ f ref = none) ∨
      ∃ old ∈ type.parameters, ∃ replacement, f old = some replacement ∧
        ref ∈ replacement.parameters := by
  induction type using Ty.induction with
  | step head arguments nullable ih =>
    rw [mapParameters_mk] at h
    cases replaced : head.replacement? f with
    | some replacement =>
      rw [replaced] at h
      cases head with
      | classifier => cases replaced
      | parameter old =>
        refine .inr ⟨old, mem_parameters_mk.2 (.inl List.mem_cons_self), replacement, replaced, ?_⟩
        cases nullable <;> simpa using h
    | none =>
      rw [replaced] at h
      rcases mem_parameters_mk.1 h with hh | ⟨variance, type, ha, hr⟩
      · refine .inl ⟨mem_parameters_mk.2 (.inl hh), ?_⟩
        cases head with
        | classifier => cases hh
        | parameter old =>
          obtain rfl := List.mem_singleton.1 hh
          exact replaced
      · obtain ⟨argument, listed, e⟩ := List.mem_map.1 ha
        cases argument with
        | star => cases e
        | projected variance' type' =>
          obtain ⟨rfl, rfl⟩ := TypeArgument.projected.inj e
          rcases ih variance' type' listed hr with ⟨hr, unreplaced⟩ | ⟨old, ho, replacement, hf, hr⟩
          · exact .inl ⟨mem_parameters_mk.2 (.inr ⟨_, _, listed, hr⟩), unreplaced⟩
          · exact .inr ⟨old, mem_parameters_mk.2 (.inr ⟨_, _, listed, ho⟩), replacement, hf, hr⟩

end Ty

end ClassSymbols
