import ClassSymbols.Proofs.Overrides.Instantiation
import ClassSymbols.Proofs.Runs.ClosedTypes

/-!
# Copies of members of a supertype

A member that a class takes over from a supertype is copied there with the arguments of the
supertype in the place of the type parameters of its class. One substitution does that and gives the
member's own type parameters to the copy, so what it brings must not be taken for one of them.

## Main definitions

* `Declaration.Instantiable` — members that can be copied with the arguments of a supertype.

## Main statements

* `Declaration.types_fakeOverride` — the types of a copy.
* `fakeOverride_instantiates` — a copy is the member seen through the supertype, and refers to
  nothing else.
-/

namespace ClassSymbols

/-- Whether a member of the class `parent` can get the id of a copy when a supertype says what the
type parameters of that class are: the member lists its own parameters, the id is new, and the
arguments of the supertype refer to type parameters of neither. -/
structure Declaration.Instantiable (member : Declaration) (parent : DeclId) (supertype : Ty)
    (id : DeclId) : Prop where
  apart : parent ≠ member.id
  fresh : id ≠ member.id ∧ id ≠ parent
  covered : ∀ type ∈ member.types, member.Covers id type
  unmentioned : ∀ variance argument, .projected variance argument ∈ supertype.arguments →
    ∀ ref ∈ argument.parameters, ref.owner ≠ member.id ∧ ref.owner ≠ id

namespace Declaration

variable {member : Declaration} {id owner parent : DeclId} {supertype : Ty}
  {substitution : Substitution} {overridden : List DeclId}

theorem Instantiable.neutral (h : member.Instantiable parent supertype id) :
    (Substitution.ofSupertype parent supertype).Neutral member.id id := by
  refine ⟨Substitution.get?_ofSupertype_of_ne h.apart supertype, fun brings ref hr => ?_⟩
  obtain ⟨variance, argument, listed, hr⟩ :=
    Substitution.exists_argument_of_get?_ofSupertype brings hr
  exact h.unmentioned variance argument listed ref hr

theorem signatureTypes_subset (member : Declaration) : member.signatureTypes ⊆ member.types := by
  intro type ht
  refine List.mem_append_right _ ?_
  unfold signatureTypes at ht
  split at ht
  · next data kind =>
    -- the signature does without the types of the elements of value parameters
    rw [List.mem_append, List.mem_append] at ht
    rw [kind]
    refine List.mem_append.2 (ht.imp_left fun ht => List.mem_append.2 (ht.imp_right fun ht => ?_))
    obtain ⟨parameter, hp, rfl⟩ := List.mem_map.1 ht
    exact List.mem_flatMap.2 ⟨parameter, hp, List.mem_cons_self⟩
  · next data kind =>
    rw [kind]
    exact ht
  · cases ht

theorem exists_signature (callable : member.isCallable = true) (substitution : Substitution) :
    ∃ signature, Signature.of? member substitution = some signature := by
  obtain ⟨_, _, _, _, _, kind⟩ := member
  cases kind <;> first | exact ⟨_, rfl⟩ | cases callable

/-- The types of a copy are those of the member after the substitution, the bounds of its type
parameters and the types of the elements of its value parameters included. -/
theorem types_fakeOverride (callable : member.isCallable = true) :
    (member.fakeOverride id owner substitution overridden).types =
      member.types.map (·.substitute (member.reown id substitution)) := by
  generalize reowned : member.reown id substitution = replaced
  have bounds (parameters : List TypeParameter) :
      (parameters.map (·.instantiate id replaced)).flatMap (·.upperBounds) =
        (parameters.flatMap (·.upperBounds)).map (·.substitute replaced) := by
    rw [List.flatMap_map, List.map_flatMap]
    rfl
  have values (parameters : List ValueParameter) :
      (parameters.map (·.instantiate replaced)).flatMap (·.types) =
        (parameters.flatMap (·.types)).map (·.substitute replaced) := by
    rw [List.flatMap_map, List.map_flatMap]
    refine List.flatMap_congr fun parameter _ => ?_
    simp [ValueParameter.types, ValueParameter.instantiate, Option.toList_map]
  unfold types typeParameters fakeOverride
  rw [reowned]
  cases kind : member.kind with
  | function data => simp [DeclKind.instantiate, bounds, values, Option.toList_map]
  | property data => simp [DeclKind.instantiate, bounds, Option.toList_map]
  | _ => simp [isCallable, kind] at callable

/-- A type parameter that a type of a copy refers to belongs to the copy, to a declaration around
the member unless the supertype has an argument for it, or to a declaration that the arguments of
the supertype refer to. -/
theorem Instantiable.mem_parameters (h : member.Instantiable parent supertype id) {type : Ty}
    (ht : type ∈ member.types) {ref : ParameterRef}
    (hr : ref ∈ (type.substitute (member.reown id (.ofSupertype parent supertype))).parameters) :
    ref.owner = id ∨
      (ref ∈ type.parameters ∧ ref.owner ≠ member.id ∧
        (ref.owner = parent → supertype.arguments.length ≤ ref.index)) ∨
      ∃ variance argument, .projected variance argument ∈ supertype.arguments ∧
        ref ∈ argument.parameters := by
  rcases mem_parameters_reown (h.covered type ht) hr with ⟨own, -⟩ | ⟨hr, other, left⟩ |
    ⟨key, brought, brings, hr⟩
  · exact .inl own
  · refine .inr (.inl ⟨hr, other, fun own => ?_⟩)
    rw [Substitution.replacement?, Substitution.get?_ofSupertype, if_pos own,
      Option.map_eq_none_iff] at left
    exact List.getElem?_eq_none_iff.1 left
  · exact .inr (.inr (Substitution.exists_argument_of_get?_ofSupertype brings hr))

end Declaration

/-- A copy of a member looks as the member looks through the supertype. None of its types refers to
a type parameter of the member, and they refer to a type parameter of the member's class only where
an argument of the supertype does, or where the member does and the supertype has no argument for
it. -/
theorem fakeOverride_instantiates {member : Declaration} {parent id : DeclId} {supertype : Ty}
    (callable : member.isCallable = true) (instantiable : member.Instantiable parent supertype id)
    (owner : DeclId) (overridden : List DeclId) :
    let seen := Substitution.ofSupertype parent supertype
    let copy := member.fakeOverride id owner seen overridden
    (∃ signature, Signature.of? copy .identity = some signature ∧
      Signature.of? member seen = some signature) ∧
      ∀ type ∈ copy.types, ∀ ref ∈ type.parameters,
        ref.owner ≠ member.id ∧
          (ref.owner = parent →
            (∃ variance argument, .projected variance argument ∈ supertype.arguments ∧
              ref ∈ argument.parameters) ∨
              (∃ original ∈ member.types, ref ∈ original.parameters) ∧
              supertype.arguments.length ≤ ref.index) := by
  intro seen copy
  have neutral := instantiable.neutral
  refine ⟨?_, fun type ht ref hr => ?_⟩
  · obtain ⟨signature, signed⟩ := Declaration.exists_signature callable seen
    have covered : ∀ type ∈ member.signatureTypes, member.Covers id type := fun type ht =>
      instantiable.covered type (member.signatureTypes_subset ht)
    exact ⟨signature, (Signature.of?_fakeOverride covered neutral).trans signed, signed⟩
  · rw [Declaration.types_fakeOverride callable] at ht
    obtain ⟨original, ho, rfl⟩ := List.mem_map.1 ht
    rcases instantiable.mem_parameters ho hr with rfl | ⟨hr, other, beyond⟩ |
      ⟨variance, argument, listed, hr⟩
    · exact ⟨instantiable.fresh.1, fun own => absurd own instantiable.fresh.2⟩
    · exact ⟨other, fun own => .inr ⟨⟨original, ho, hr⟩, beyond own⟩⟩
    · exact ⟨(instantiable.unmentioned variance argument listed ref hr).1,
        fun _ => .inl ⟨variance, argument, listed, hr⟩⟩

/-- A function of a class with two type parameters, with a nullable receiver of the first of them
and a parameter of its own that is bounded by the second one, takes any number of values of its
parameter and gives a list of them. -/
def gather : Declaration where
  id := ⟨5⟩
  name := "gather"
  container := some ⟨2⟩
  kind := .function {
    typeParameters := [⟨0, "R", 0, ⟨5⟩, .invariant, false, [.ofParameter ⟨2⟩ 1 "K"]⟩]
    receiver := some (Ty.ofParameter ⟨2⟩ 0 "T").makeNullable
    valueParameters :=
      [⟨"x", .ofParameter ⟨5⟩ 0 "R", some (.ofParameter ⟨5⟩ 0 "R"), false, false, false, []⟩]
    returnType := (Ty.ofClass ⟨"", "List", false⟩).withArguments
      [.projected .covariant (.ofParameter ⟨5⟩ 0 "R")] }

/-- A supertype that has an argument for the first type parameter alone leaves the bound to the
second one as it is. -/
theorem fakeOverride_instantiates_gather :
    let supertype := (Ty.ofClass ⟨"", "Base", false⟩).withArguments
      [.projected .invariant (.ofParameter ⟨7⟩ 0 "E")]
    let seen := Substitution.ofSupertype ⟨2⟩ supertype
    let copy := gather.fakeOverride ⟨9⟩ ⟨7⟩ seen [⟨5⟩]
    (copy.types = [.ofParameter ⟨2⟩ 1 "K", (Ty.ofParameter ⟨7⟩ 0 "E").makeNullable,
      .ofParameter ⟨9⟩ 0 "R",
      .ofParameter ⟨9⟩ 0 "R",
      (Ty.ofClass ⟨"", "List", false⟩).withArguments
        [.projected .covariant (.ofParameter ⟨9⟩ 0 "R")]]) ∧
    (∃ signature, Signature.of? copy .identity = some signature ∧
      Signature.of? gather seen = some signature) ∧
      ∀ type ∈ copy.types, ∀ ref ∈ type.parameters,
        ref.owner ≠ gather.id ∧
          (ref.owner = ⟨2⟩ →
            (∃ variance argument, .projected variance argument ∈ supertype.arguments ∧
              ref ∈ argument.parameters) ∨
              (∃ original ∈ gather.types, ref ∈ original.parameters) ∧
              supertype.arguments.length ≤ ref.index) := by
  intro supertype seen copy
  have covered : ∀ type ∈ gather.types, gather.Covers ⟨9⟩ type := by
    have own : ∀ type ∈ gather.types, ∀ ref ∈ type.parameters, ref.owner = gather.id →
        ref.index ∈ gather.typeParameters.map (·.index) := by decide
    have fresh : ∀ type ∈ gather.types, ∀ ref ∈ type.parameters, ref.owner ≠ ⟨9⟩ := by decide
    exact fun type ht => ⟨own type ht, fresh type ht⟩
  have unmentioned : ∀ variance argument, .projected variance argument ∈ supertype.arguments →
      ∀ ref ∈ argument.parameters, ref.owner ≠ gather.id ∧ ref.owner ≠ ⟨9⟩ := by
    rintro variance argument ha ref hr
    obtain ⟨rfl, rfl⟩ := TypeArgument.projected.inj (List.mem_singleton.1 ha)
    obtain rfl := List.mem_singleton.1 hr
    decide
  exact ⟨by decide, fakeOverride_instantiates rfl ⟨by decide, by decide, covered, unmentioned⟩
    ⟨7⟩ [⟨5⟩]⟩

end ClassSymbols
