import ClassSymbols.Overrides.Synthesis
import ClassSymbols.Proofs.Data.Grouping
import ClassSymbols.Proofs.Ty.Substitution
import Mathlib.Data.List.Induction

/-!
# Signatures of fake overrides

A fake override looks in its class as the member that it was copied from does there, if the types of
that member are in scope: they refer to its own type parameters by their indices, and to no
declaration that came later.

## Main definitions

* `Declaration.Scoped` — members whose types are in scope.
* `Substitution.Foreign` — substitutions that have nothing to do with a member.
* `Declaration.Covers`, `Substitution.Neutral` — what of that a copy with a given id needs.

## Main statements

* `mem_parameters_reown` — the parameters that the types of a fake override refer to.
* `Signature.of?_fakeOverride` — the signature of a fake override.
* `Declaration.Scoped.fakeOverride` — the types of a fake override are in scope.
-/

namespace ClassSymbols

def Declaration.signatureTypes (declaration : Declaration) : List Ty :=
  match declaration.kind with
  | .function data =>
    data.receiver.toList ++ data.valueParameters.map (·.type) ++ [data.returnType]
  | .property data => data.receiver.toList ++ [data.type]
  | _ => []

/-- Whether the types in the signature of a member refer to declarations below a bound, and to the
member's own type parameters by their indices. -/
structure Declaration.Scoped (declaration : Declaration) (bound : DeclId) : Prop where
  below : ∀ type ∈ declaration.signatureTypes,
    ∀ ref ∈ type.parameters, ref.owner.number < bound.number
  own : ∀ type ∈ declaration.signatureTypes, ∀ ref ∈ type.parameters, ref.owner = declaration.id →
    ref.index ∈ declaration.typeParameters.map (·.index)

/-- Whether a substitution neither replaces the type parameters of a declaration nor brings them,
and brings those of declarations below a bound only. -/
structure Substitution.Foreign (substitution : Substitution) (id bound : DeclId) : Prop where
  unreplaced : ∀ index, substitution.get? (id, index) = none
  unmentioned : ∀ {key type}, substitution.get? key = some type →
    ∀ ref ∈ type.parameters, ref.owner ≠ id
  below : ∀ {key type}, substitution.get? key = some type → ∀ ref ∈ type.parameters,
    ref.owner.number < bound.number

/-- Whether a type refers to the type parameters of a member by their indices, and to none of a
copy. -/
structure Declaration.Covers (source : Declaration) (id : DeclId) (type : Ty) : Prop where
  own : ∀ ref ∈ type.parameters,
    ref.owner = source.id → ref.index ∈ source.typeParameters.map (·.index)
  fresh : ∀ ref ∈ type.parameters, ref.owner ≠ id

/-- Whether a substitution neither replaces the type parameters of a declaration nor brings those of
it or of its copy. -/
structure Substitution.Neutral (substitution : Substitution) (source id : DeclId) : Prop where
  unreplaced : ∀ index, substitution.get? (source, index) = none
  unmentioned : ∀ {key type}, substitution.get? key = some type → ∀ ref ∈ type.parameters,
    ref.owner ≠ source ∧ ref.owner ≠ id

theorem Declaration.Scoped.covers {source : Declaration} {bound id : DeclId}
    (inScope : source.Scoped bound) (fresh : bound.number ≤ id.number) {type : Ty}
    (ht : type ∈ source.signatureTypes) : source.Covers id type := by
  refine ⟨inScope.own type ht, fun ref hr => ?_⟩
  have below := inScope.below type ht ref hr
  rintro rfl
  omega

theorem Substitution.Foreign.neutral {substitution : Substitution} {source bound id : DeclId}
    (foreign : substitution.Foreign source bound) (fresh : bound.number ≤ id.number) :
    substitution.Neutral source id := by
  refine ⟨foreign.unreplaced, fun h ref hr => ⟨foreign.unmentioned h ref hr, ?_⟩⟩
  have below := foreign.below h ref hr
  rintro rfl
  omega

/-! ## Substitutions of supertypes -/

/-- A substitution of a supertype brings what the arguments of the supertype mention. -/
theorem Substitution.exists_argument_of_get?_ofSupertype {owner : DeclId} {supertype type : Ty}
    {key : DeclId × Nat} (h : (ofSupertype owner supertype).get? key = some type)
    {ref : ParameterRef} (hr : ref ∈ type.parameters) :
    ∃ variance argument, .projected variance argument ∈ supertype.arguments ∧
      ref ∈ argument.parameters := by
  rw [get?_ofSupertype] at h
  split at h
  · obtain ⟨argument, listed, rfl⟩ := Option.map_eq_some_iff.1 h
    cases argument with
    | star => cases hr
    | projected variance type => exact ⟨variance, type, List.mem_of_getElem? listed, hr⟩
  · cases h

/-- A substitution of a supertype replaces parameters of its class only. -/
theorem Substitution.get?_ofSupertype_of_ne {owner id : DeclId} (other : owner ≠ id)
    (supertype : Ty) (index : Nat) : (ofSupertype owner supertype).get? (id, index) = none := by
  rw [get?_ofSupertype, if_neg (Ne.symm other)]

theorem Substitution.foreign_ofSupertype {owner id bound : DeclId} {supertype : Ty}
    (other : owner ≠ id)
    (mentions : ∀ ref ∈ supertype.parameters, ref.owner ≠ id ∧ ref.owner.number < bound.number) :
    (ofSupertype owner supertype).Foreign id bound := by
  have mentions {key : DeclId × Nat} {type : Ty}
    (h : (ofSupertype owner supertype).get? key = some type)
      (ref : ParameterRef) (hr : ref ∈ type.parameters) :
        ref.owner ≠ id ∧ ref.owner.number < bound.number := by
    obtain ⟨variance, argument, listed, hr⟩ := exists_argument_of_get?_ofSupertype h hr
    obtain ⟨head, arguments, nullable⟩ := supertype
    exact mentions ref (Ty.mem_parameters_mk.2 (.inr ⟨variance, argument, listed, hr⟩))
  exact ⟨get?_ofSupertype_of_ne other supertype, fun h ref hr => (mentions h ref hr).1,
    fun h ref hr => (mentions h ref hr).2⟩

/-! ## Own type parameters -/

section Reown

variable {parameters : List TypeParameter} {substitution : Substitution} {source id : DeclId}

theorem get?_foldl_reown_of_ne {key : DeclId × Nat} (other : key.1 ≠ source) :
    (parameters.foldl (fun substitution parameter => substitution.insert (source, parameter.index)
      (.ofParameter id parameter.index parameter.name)) substitution).get? key =
        substitution.get? key := by
  induction parameters generalizing substitution with
  | nil => rfl
  | cons parameter rest ih =>
    have differs : (source, parameter.index) ≠ key := fun e => other (e ▸ rfl)
    rw [List.foldl_cons, ih, OrderedMap.get?_insert, if_neg differs]

theorem get?_foldl_reown_of_mem {index : Nat} (listed : index ∈ parameters.map (·.index)) :
    ∃ name, (parameters.foldl (fun substitution parameter =>
      substitution.insert (source, parameter.index)
      (.ofParameter id parameter.index parameter.name)) substitution).get? (source, index) =
        some (.ofParameter id index name) := by
  induction parameters using List.reverseRecOn with
  | nil => cases listed
  | append_singleton before parameter ih =>
    rw [List.foldl_append, List.foldl_cons, List.foldl_nil, OrderedMap.get?_insert]
    by_cases same : parameter.index = index
    · exact ⟨parameter.name, by rw [if_pos (by rw [same]), same]⟩
    · rw [if_neg fun e => same (Prod.mk.inj e).2]
      refine ih ?_
      simpa [Ne.symm same] using listed

end Reown

section FakeOverride

variable {source : Declaration} {id owner : DeclId} {substitution : Substitution}
  {overridden : List DeclId}

theorem replacement?_reown_of_ne {ref : ParameterRef} (other : ref.owner ≠ source.id) :
    (source.reown id substitution).replacement? ref = substitution.replacement? ref :=
  get?_foldl_reown_of_ne other

section Covered

variable {type : Ty} (covered : source.Covers id type) {ref : ParameterRef}
include covered

theorem replacement?_reown_of_own (hr : ref ∈ type.parameters) (own : ref.owner = source.id) :
    ∃ name, (source.reown id substitution).replacement? ref =
      some (.ofParameter id ref.index name) := by
  rw [Substitution.replacement?, own]
  exact get?_foldl_reown_of_mem (covered.own ref hr own)

/-- A type of a fake override refers to parameters of the copy in the place of those of the member,
to the parameters that the substitution leaves, and to those that it brings. -/
theorem mem_parameters_reown
    (hr : ref ∈ (type.substitute (source.reown id substitution)).parameters) :
    (ref.owner = id ∧ ref.index ∈ source.typeParameters.map (·.index)) ∨
      (ref ∈ type.parameters ∧ ref.owner ≠ source.id ∧ substitution.replacement? ref = none) ∨
      ∃ key brought, substitution.get? key = some brought ∧ ref ∈ brought.parameters := by
  rcases Ty.mem_parameters_mapParameters hr with ⟨hr, left⟩ | ⟨replaced, ho, brought, h, hr⟩
  · by_cases own : ref.owner = source.id
    · obtain ⟨name, reowned⟩ :=
        @replacement?_reown_of_own source id substitution type covered ref hr own
      rw [reowned] at left
      cases left
    · exact .inr (.inl ⟨hr, own, replacement?_reown_of_ne own ▸ left⟩)
  · by_cases own : replaced.owner = source.id
    · obtain ⟨name, reowned⟩ :=
        @replacement?_reown_of_own source id substitution type covered replaced ho own
      obtain rfl := Option.some.inj (reowned.symm.trans h)
      obtain rfl := List.mem_singleton.1 hr
      exact .inl ⟨rfl, covered.own replaced ho own⟩
    · rw [replacement?_reown_of_ne own] at h
      exact .inr (.inr ⟨_, brought, h, hr⟩)

/-- A type of a fake override looks as that of the member looks after the substitution. -/
theorem anonymize_reown (neutral : substitution.Neutral source.id id) :
    ((type.substitute (source.reown id substitution)).substitute .identity).anonymize id =
      (type.substitute substitution).anonymize source.id := by
  rw [Ty.substitute_identity, Ty.substitute, Ty.substitute, Ty.anonymize, Ty.anonymize,
    Ty.mapParameters_mapParameters, Ty.mapParameters_mapParameters]
  refine Ty.mapParameters_congr fun ref hr => ?_
  unfold Ty.andThen
  by_cases own : ref.owner = source.id
  · -- The member's own parameters become those of the copy, and both keep their position only.
    obtain ⟨name, reowned⟩ :=
      @replacement?_reown_of_own source id substitution type covered ref hr own
    have kept : substitution.replacement? ref = none := by
      rw [Substitution.replacement?, own]
      exact neutral.unreplaced ref.index
    rw [reowned, kept]
    simp [Ty.ofParameter, Ty.mapParameters_mk, TypeHead.replacement?, own]
  · rw [replacement?_reown_of_ne own]
    cases replaced : substitution.replacement? ref with
    | none => simp [own, covered.fresh ref hr]
    | some replacement =>
      refine congrArg some (Ty.mapParameters_congr fun ref hr => ?_)
      simp [neutral.unmentioned replaced ref hr]

end Covered

/-- A fake override has the signature that the member has after the substitution. -/
theorem Signature.of?_fakeOverride (covered : ∀ type ∈ source.signatureTypes, source.Covers id type)
    (neutral : substitution.Neutral source.id id) :
    Signature.of? (source.fakeOverride id owner substitution overridden) .identity =
      Signature.of? source substitution := by
  have same := fun type ht => anonymize_reown (covered type ht) neutral
  unfold Declaration.signatureTypes at same
  unfold Signature.of? Declaration.fakeOverride
  cases kind : source.kind with
  | function data =>
    rw [kind] at same
    have receiver : ∀ type ∈ data.receiver, _ := fun type ht =>
      same type (by simp [Option.mem_def.1 ht])
    have parameters : ∀ parameter ∈ data.valueParameters, _ := fun parameter hp =>
      same parameter.type
        (List.mem_append_left _ (List.mem_append_right _ (List.mem_map_of_mem hp)))
    have result := same data.returnType (by simp)
    simp only [DeclKind.instantiate, List.length_map, Option.map_map, List.map_map, result,
      Option.some.injEq, Signature.mk.injEq, true_and, and_true]
    exact ⟨Option.map_congr receiver, List.map_congr_left parameters⟩
  | property data =>
    rw [kind] at same
    have receiver : ∀ type ∈ data.receiver, _ := fun type ht =>
      same type (by simp [Option.mem_def.1 ht])
    have result := same data.type (by simp)
    simp only [DeclKind.instantiate, List.length_map, Option.map_map, result,
      Option.some.injEq, Signature.mk.injEq, true_and, and_true]
    exact Option.map_congr receiver
  | _ => rfl

theorem Declaration.signatureTypes_fakeOverride :
    (source.fakeOverride id owner substitution overridden).signatureTypes =
      source.signatureTypes.map (·.substitute (source.reown id substitution)) := by
  unfold signatureTypes fakeOverride
  cases source.kind with
  | function data =>
    simp [DeclKind.instantiate, ValueParameter.instantiate, Option.toList_map, Function.comp_def]
  | property data => simp [DeclKind.instantiate, Option.toList_map]
  | _ => rfl

theorem Declaration.indices_fakeOverride :
    (source.fakeOverride id owner substitution overridden).typeParameters.map (·.index) =
      source.typeParameters.map (·.index) := by
  unfold typeParameters fakeOverride
  cases source.kind with
  | function data => simp [DeclKind.instantiate, TypeParameter.instantiate]
  | property data => simp [DeclKind.instantiate, TypeParameter.instantiate]
  | _ => rfl

/-- The types of a fake override are in scope. -/
theorem Declaration.Scoped.fakeOverride {bound bound' : DeclId} (inScope : source.Scoped bound)
    (foreign : substitution.Foreign source.id bound) (fresh : bound.number ≤ id.number)
    (allocated : id.number < bound'.number) :
    (source.fakeOverride id owner substitution overridden).Scoped bound' := by
  have each : ∀ type ∈ source.signatureTypes,
      ∀ ref ∈ (type.substitute (source.reown id substitution)).parameters,
        ref.owner.number < bound'.number ∧
          (ref.owner = id → ref.index ∈ source.typeParameters.map (·.index)) := by
    intro type ht ref hr
    have old (h : ref.owner.number < bound.number) : ref.owner.number < bound'.number ∧
        (ref.owner = id → ref.index ∈ source.typeParameters.map (·.index)) := by
      refine ⟨by omega, ?_⟩
      rintro rfl
      omega
    rcases mem_parameters_reown (inScope.covers fresh ht) hr with ⟨rfl, listed⟩ | ⟨hr, -⟩ |
      ⟨key, brought, h, hr⟩
    · exact ⟨allocated, fun _ => listed⟩
    · exact old (inScope.below type ht ref hr)
    · exact old (foreign.below h ref hr)
  refine ⟨fun type ht ref hr => ?_, fun type ht ref hr own => ?_⟩ <;>
    rw [Declaration.signatureTypes_fakeOverride] at ht <;>
    obtain ⟨old, ho, rfl⟩ := List.mem_map.1 ht
  · exact (each old ho ref hr).1
  · rw [Declaration.indices_fakeOverride]
    exact (each old ho ref hr).2 own

end FakeOverride

end ClassSymbols
