import ClassSymbols.Proofs.Scope.Renaming
import ClassSymbols.Proofs.Scope.Unfolding

/-!
# Owners of parameters in scope

A type that is read refers to type parameters in scope, so only to declarations that own one of
them. A renaming that fixes these declarations leaves the type as it is, and a context likewise.

## Main definitions

* `Ty.Owned`, `TypeParameter.Owned`, `ScopeContext.Owned` — whether all declarations referred to
  belong to a set.
* `ScopeContext.Sees` — whether a type parameter is in scope.

## Main statements

* `ScopeContext.sees_of_readType` — types that are read refer to type parameters in scope.
* `ScopeContext.Owned.readType` — types that are read refer to declarations that the context refers
  to.
* `Ty.Owned.rename_eq_self`, `ScopeContext.Owned.rename_eq_self` — renamings that fix what is
  referred to.
-/

namespace ClassSymbols

variable {P Q : DeclId → Prop} {f : DeclId → DeclId}

/-! ## Types -/

/-- Whether the parameters that a type refers to are all owned by declarations of a set. -/
def Ty.Owned (P : DeclId → Prop) (type : Ty) : Prop := ∀ ref ∈ type.parameters, P ref.owner

namespace Ty

variable {type : Ty}

theorem Owned.mono (wider : ∀ id, P id → Q id) (h : type.Owned P) : type.Owned Q :=
  fun ref hr => wider ref.owner (h ref hr)

theorem owned_ofClass (id : ClassId) : (ofClass id).Owned P := by
  intro ref hr
  cases hr

theorem owned_ofParameter {owner : DeclId} (h : P owner) (index : Nat) (name : String) :
    (ofParameter owner index name).Owned P := by
  intro ref hr
  obtain rfl := List.mem_singleton.1 hr
  exact h

theorem Owned.withArguments (h : type.Owned P) {arguments : List TypeArgument}
    (others : ∀ variance argument, .projected variance argument ∈ arguments → argument.Owned P) :
    (type.withArguments arguments).Owned P := by
  obtain ⟨head, before, nullable⟩ := type
  intro ref hr
  rcases mem_parameters_mk.1 hr with hr | ⟨variance, argument, ha, hr⟩
  · exact h ref (mem_parameters_mk.2 (.inl hr))
  · exact others variance argument ha ref hr

/-- A renaming that fixes the owners of its parameters leaves a type as it is. -/
theorem Owned.rename_eq_self (h : type.Owned fun id => f id = id) : type.rename f = type := by
  induction type using Ty.induction with
  | step head arguments nullable ih =>
    have heads : head.rename f = head := by
      cases head with
      | classifier id => rfl
      | parameter ref =>
        have fixed := h ref (mem_parameters_mk.2 (.inl List.mem_cons_self))
        simp [TypeHead.rename, ParameterRef.rename, fixed]
    have others : arguments.map (TypeArgument.rename f) = arguments := by
      refine List.map_congr_left (fun argument ha => ?_) |>.trans (List.map_id arguments)
      cases argument with
      | star => rfl
      | projected variance type =>
        have fixed :=
          ih variance type ha fun ref hr =>
            h ref (mem_parameters_mk.2 (.inr ⟨variance, type, ha, hr⟩))
        rw [TypeArgument.rename_projected, fixed, id]
    rw [rename_mk, heads, others]

end Ty

/-! ## Parameters -/

/-- Whether a parameter is owned by a declaration of a set, and its bounds refer to no other
declarations. -/
structure TypeParameter.Owned (P : DeclId → Prop) (parameter : TypeParameter) : Prop where
  owner : P parameter.owner
  upperBounds : ∀ bound ∈ parameter.upperBounds, bound.Owned P

namespace TypeParameter.Owned

variable {parameter : TypeParameter}

theorem mono (wider : ∀ id, P id → Q id) (h : parameter.Owned P) : parameter.Owned Q :=
  ⟨wider _ h.owner, fun bound hb => (h.upperBounds bound hb).mono wider⟩

theorem asType (h : parameter.Owned P) : parameter.asType.Owned P :=
  Ty.owned_ofParameter h.owner _ _

theorem rename_eq_self (h : parameter.Owned fun id => f id = id) :
    parameter.rename f = parameter := by
  obtain ⟨id, name, index, owner, variance, reified, upperBounds⟩ := parameter
  have owner_eq : f owner = owner := h.owner
  have bounds : upperBounds.map (Ty.rename f) = upperBounds :=
    (List.map_congr_left fun bound hb => (h.upperBounds bound hb).rename_eq_self).trans
      (List.map_id _)
  simp only [rename, owner_eq, bounds]

end TypeParameter.Owned

theorem map_rename_eq_self {parameters : List TypeParameter}
    (h : ∀ parameter ∈ parameters, parameter.Owned fun id => f id = id) :
    parameters.map (TypeParameter.rename f) = parameters :=
  (List.map_congr_left fun parameter hp => (h parameter hp).rename_eq_self).trans (List.map_id _)

/-! ## Contexts -/

/-- Whether the declarations that a context refers to all belong to a set. -/
structure ScopeContext.Owned (P : DeclId → Prop) (context : ScopeContext) : Prop where
  fragment : P context.fragment
  declarations : ∀ id ∈ context.declarations, P id
  parameters : ∀ parameter ∈ context.parameters.frames.flatten, parameter.Owned P

namespace ScopeContext.Owned

variable {context : ScopeContext}

theorem mono (wider : ∀ id, P id → Q id) (h : context.Owned P) : context.Owned Q where
  fragment := wider _ h.fragment
  declarations id hid := wider id (h.declarations id hid)
  parameters parameter hp := (h.parameters parameter hp).mono wider

theorem ofFragment {fragment : DeclId} (h : P fragment) (names : NameTable) (types : TypeTable) :
    (ScopeContext.ofFragment fragment names types).Owned P where
  fragment := h
  declarations _ hid := by cases hid
  parameters _ hp := by cases hp

theorem withParameters (h : context.Owned P) {parameters : List TypeParameter}
    (owned : ∀ parameter ∈ parameters, parameter.Owned P) :
    (context.withParameters parameters).Owned P where
  fragment := h.fragment
  declarations := h.declarations
  parameters parameter hp := by
    rw [ScopeContext.withParameters, ParameterScope.flatten_push, List.mem_append] at hp
    exact hp.elim (owned parameter) (h.parameters parameter)

theorem enter (h : context.Owned P) {declaration : DeclId} (inner : P declaration)
    {parameters : List TypeParameter} (owned : ∀ parameter ∈ parameters, parameter.Owned P)
    (types : Option TypeTable) :
    (context.enter declaration parameters types).Owned P where
  fragment := h.fragment
  declarations id hid := by
    rcases List.mem_append.1 hid with hid | hid
    · exact h.declarations id hid
    · exact List.mem_singleton.1 hid ▸ inner
  parameters parameter hp := by
    rw [ScopeContext.enter, ParameterScope.flatten_push, List.mem_append] at hp
    exact hp.elim (owned parameter) (h.parameters parameter)

/-- A renaming that fixes the declarations that it refers to leaves a context as it is. -/
theorem rename_eq_self (h : context.Owned fun id => f id = id) : context.rename f = context := by
  obtain ⟨fragment, names, types, ⟨frames, nonempty⟩, declarations⟩ := context
  have fragment_eq : f fragment = fragment := h.fragment
  have declarations_eq : declarations.map f = declarations :=
    (List.map_congr_left h.declarations).trans (List.map_id _)
  have frames_eq : frames.map (List.map (TypeParameter.rename f)) = frames := by
    refine (List.map_congr_left fun frame hf => ?_).trans (List.map_id _)
    exact map_rename_eq_self fun parameter hp =>
      h.parameters parameter (List.mem_flatten.2 ⟨frame, hf, hp⟩)
  simp only [ScopeContext.rename, ParameterScope.rename, fragment_eq, declarations_eq, frames_eq]

end ScopeContext.Owned

/-! ## Types that are read -/

namespace ScopeContext

variable {context : ScopeContext}

/-- Whether a type parameter that a type refers to is in scope. -/
def Sees (context : ScopeContext) (ref : ParameterRef) : Prop :=
  ∃ parameter ∈ context.parameters.frames.flatten, parameter.asRef = ref

theorem Denotes.sees {classifier : Classifier} {head : TypeHead}
    (h : context.Denotes classifier head) :
    ∀ ref ∈ head.parameters, context.Sees ref := by
  intro ref hr
  cases h with
  | className named => cases hr
  | typeParameter found =>
    exact ⟨_, List.mem_of_find?_eq_some found, (List.mem_singleton.1 hr).symm⟩
  | typeParameterName named found =>
    exact ⟨_, List.mem_of_find?_eq_some found, (List.mem_singleton.1 hr).symm⟩

theorem Unfolds.sees {record : TypeRecord} {type : Ty} (h : context.Unfolds record type) :
    ∀ ref ∈ type.parameters, context.Sees ref := by
  induction type using Ty.induction generalizing record with
  | step head arguments nullable ih =>
    obtain ⟨denotes, each⟩ := h
    intro ref hr
    rcases Ty.mem_parameters_mk.1 hr with hr | ⟨variance, argument, ha, hr⟩
    · exact denotes.sees ref hr
    · obtain ⟨_, -, unfolds⟩ := exists_mem_of_forall₂ each ha
      cases unfolds with
      | projected _ unfolds => exact ih variance argument ha unfolds ref hr

/-- A type that is read refers to type parameters in scope only. -/
theorem sees_of_readType {typeRef : TypeRef} {type : Ty}
    (read : context.readType typeRef = .ok type) :
    ∀ ref ∈ type.parameters, context.Sees ref := by
  obtain ⟨record, -, read⟩ := Except.bind_eq_ok_iff.1 read
  exact (readWithin_eq_ok_iff.1 read).1.sees

/-- A type that is read refers to declarations that the context refers to. -/
theorem Owned.readType (h : context.Owned P) {ref : TypeRef} {type : Ty}
    (read : context.readType ref = .ok type) :
    type.Owned P := by
  intro ref hr
  obtain ⟨parameter, hp, rfl⟩ := sees_of_readType read ref hr
  exact (h.parameters parameter hp).owner

end ScopeContext

end ClassSymbols
