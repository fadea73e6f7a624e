import ClassSymbols.Proofs.Overrides.Copies
import ClassSymbols.Proofs.Overrides.Shapes
import ClassSymbols.Proofs.Overrides.Storing
import ClassSymbols.Proofs.Subtyping.Links
import ClassSymbols.Proofs.Ty.Fixed

/-!
# Unmodified members

A member is inherited unmodified if its signature is the same in the class. So the substitution of
the supertype changes none of the types in its signature. The bounds of its type parameters and the
types of the elements of its value parameters are not in the signature, and stay as they are only as
far as they refer to parameters that it shows.

## Main statements

* `Signature.anonymize_eq_of_of?_eq` — types of a member whose signature stays the same look the
  same.
* `SynthesisInput.Reads.unmodified_of_standIns` — what is represented as unmodified is.
* `signatureTypes_unmodified` — which types of such a member are not changed.
-/

namespace ClassSymbols

/-- The types of a member whose signature is the same after a substitution look the same in it. -/
theorem Signature.anonymize_eq_of_of?_eq {declaration : Declaration} {substitution : Substitution}
    (same : Signature.of? declaration substitution = Signature.of? declaration .identity)
    {type : Ty} (ht : type ∈ declaration.signatureTypes) :
    (type.substitute substitution).anonymize declaration.id = type.anonymize declaration.id := by
  unfold Signature.of? at same
  unfold Declaration.signatureTypes at ht
  simp only [Ty.substitute_identity] at same
  cases kind : declaration.kind with
  | function data =>
    simp only [kind, Option.some.injEq, Signature.mk.injEq, true_and, and_true] at same
    obtain ⟨receiver, values, result⟩ := same
    simp only [kind, List.mem_append, Option.mem_toList, List.mem_map, List.mem_singleton] at ht
    rcases ht with (ht | ⟨parameter, hp, rfl⟩) | rfl
    · exact Option.some.inj (by simpa [ht] using receiver)
    · exact List.map_inj_left.1 values parameter hp
    · exact result
  | property data =>
    simp only [kind, Option.some.injEq, Signature.mk.injEq, true_and, and_true] at same
    obtain ⟨receiver, result⟩ := same
    simp only [kind, List.mem_append, Option.mem_toList, List.mem_singleton] at ht
    rcases ht with ht | rfl
    · exact Option.some.inj (by simpa [ht] using receiver)
    · exact result
  | _ => simp [kind] at ht

namespace SynthesisInput.Reads

variable {input : SynthesisInput} {declared : List DeclId} {supertypes : List SupertypeMembers}
  {inherited : List Inherited} (reads : input.Reads declared supertypes inherited)
include reads

/-- A stored member that an unmodified entry stands for is an inherited member that looks the same
in the class. -/
theorem unmodified_of_standIns {id : DeclId} (stored : (input.store.get? id).isSome)
    {entry : EffectiveMember} (stands : entry ∈ (input.run inherited).set.standIns id)
    (unmodified : entry.origin = .inherited) :
    ∃ member ∈ inherited, member.id = id ∧ member.unmodified = true := by
  obtain ⟨hm, related⟩ := List.mem_filter.1 stands
  obtain ⟨synthesized, related⟩ := of_decide_eq_true related
  rcases mem_members_run_iff.1 hm with ⟨_, _, rfl⟩ | ⟨next, name, bucket, settles, joined, rfl⟩
  · exact absurd rfl synthesized
  · obtain ⟨single, unmodified⟩ := originOf_eq_inherited_iff.1 unmodified
    refine ⟨bucket.first, settles.mem_inherited settles.first_mem, ?_, unmodified⟩
    cases keeps : input.keeps bucket
    · have made : input.Materializes bucket := ⟨joined, keeps⟩
      rw [id_representative_of_not_keeps keeps, reads.overriddenBy_next settles made, Bucket.ids,
        Bucket.members, single] at related
      rcases related with rfl | listed
      · simp [reads.get?_of_settles settles] at stored
      · exact (List.mem_singleton.1 listed).symm
    · rw [representative_of_keeps keeps, reads.overriddenBy_kept settles keeps] at related
      exact related.resolve_right List.not_mem_nil

end SynthesisInput.Reads

/-- Whether a synthesis over members in scope has an unmodified entry that stands for a member of a
supertype, which is seen through `substitution`. -/
def Store.TakesUnmodified (store : Store) (declaration : Declaration)
    (substitution : Substitution) : Prop :=
  ∃ (options : SynthesisOptions) (lookup : OverriddenLookup) (owner : DeclId)
    (declared : List DeclId) (supertypes : List SupertypeMembers)
    (synthesis : OverrideSynthesis) (store' : Store),
    store.WellFormed ∧ store.Offers supertypes ∧
    synthesizeWith options lookup owner declared supertypes store = .ok synthesis store' ∧
    store.get? declaration.id = some declaration ∧
    substitutionFor? supertypes declaration.id = some substitution ∧
    ∃ entry ∈ synthesis.set.standIns declaration.id, entry.origin = .inherited

/-- A member that is taken unmodified looks the same through the supertype, which says nothing about
its own type parameters. -/
theorem Store.TakesUnmodified.looksSame {store : Store} {declaration : Declaration}
    {substitution : Substitution} (taken : store.TakesUnmodified declaration substitution) :
    Signature.of? declaration substitution = Signature.of? declaration .identity ∧
      substitution.Foreign declaration.id store.next := by
  obtain ⟨_, _, _, _, _, _, _, wf, offers, ok, stored, seen, entry, stands, unmodified⟩ := taken
  obtain ⟨declarations, inherited, reads, rfl, rfl⟩ := (synthesizeWith_eq_ok_iff wf).1 ok
  obtain ⟨member, hm, same, looks⟩ :=
    reads.unmodified_of_standIns (Option.isSome_iff_exists.2 ⟨_, stored⟩) stands unmodified
  obtain ⟨stored', seen', -, signed⟩ :=
    Store.inheritedAs?_eq_some_iff.1 (reads.mem_inherited_iff.1 hm)
  rw [same] at stored' seen'
  obtain rfl : member.declaration = declaration := Option.some.inj (stored'.symm.trans stored)
  obtain rfl : member.substitution = substitution := Option.some.inj (seen'.symm.trans seen)
  exact ⟨signed.trans (beq_iff_eq.1 looks).symm, reads.foreign_of_mem offers hm⟩

/-- The substitution of a supertype changes no type in the signature of a member that is taken
unmodified. A type parameter that it replaces occurs there only where it is replaced by itself, or
by its nullable form if it is marked nullable. A bound or the type of the elements of a value
parameter is not changed either, if each type parameter in it that is replaced is shown in the
signature without being marked nullable. -/
theorem signatureTypes_unmodified {store : Store} {declaration : Declaration}
    {substitution : Substitution} (taken : store.TakesUnmodified declaration substitution)
    (plain : ∀ type ∈ declaration.types, type.Unapplied) :
    (∀ type ∈ declaration.signatureTypes, type.substitute substitution = type) ∧
    (∀ type ∈ declaration.signatureTypes, ∀ ref ∈ type.parameters, ∀ replacement,
      substitution.replacement? ref = some replacement →
      replacement = .mk (.parameter ref) [] replacement.nullable) ∧
    (∀ type ∈ declaration.types, (∀ ref ∈ type.parameters, (substitution.replacement? ref).isSome →
      ∃ shown ∈ declaration.signatureTypes, shown.Exposes ref) →
        type.substitute substitution = type) := by
  obtain ⟨same, foreign⟩ := taken.looksSame
  have plainSignature : ∀ type ∈ declaration.signatureTypes, type.Unapplied :=
    fun type ht => plain type (declaration.signatureTypes_subset ht)
  have unchanged : ∀ type ∈ declaration.signatureTypes, type.substitute substitution = type :=
    fun type ht =>
    Ty.substitute_eq_of_anonymize_eq foreign (plainSignature type ht)
      (Signature.anonymize_eq_of_of?_eq same ht)
  refine ⟨unchanged, fun type ht ref hr replacement => ?_, fun type ht shown => ?_⟩
  · exact Ty.replacement_of_substitute_eq (plainSignature type ht) (unchanged type ht) hr
  · refine Ty.substitute_eq_of_forall (plain type ht) fun ref hr replacement replaced => ?_
    obtain ⟨shown, hs, exposes⟩ := shown ref hr (Option.isSome_iff_exists.2 ⟨_, replaced⟩)
    exact Ty.replacement_of_exposes (plainSignature shown hs) (unchanged shown hs) exposes replaced

/-- A class with a type parameter and three functions of it: the own type parameter of the first one
is bounded by that parameter, the second one gives a nullable value of it, and the third one gives
its own type parameter applied to it. -/
def sheltered : List Declaration :=
  let function (id : DeclId) (name : String) (typeParameters : List TypeParameter)
    (returnType : Ty) : Declaration :=
    { id, name, container := some ⟨1⟩, kind := .function { typeParameters, returnType } }
  [.genericClass ⟨1⟩ "Base" [],
    function ⟨2⟩ "sort" [⟨0, "R", 0, ⟨2⟩, .invariant, false, [.ofParameter ⟨1⟩ 0 "T"]⟩]
      .nullableAny,
    function ⟨3⟩ "find" [] (.mk (.parameter ⟨⟨1⟩, 0, "T"⟩) [] true),
    function ⟨4⟩ "wrap" [⟨0, "U", 0, ⟨4⟩, .invariant, false, []⟩]
      (.mk (.parameter ⟨⟨4⟩, 0, "U"⟩) [.invariant (.ofParameter ⟨1⟩ 0 "T")] false)]

/-- What a class that extends the class with some argument makes of the functions, without fake
overrides for those that are unmodified. -/
def shelter (argument : Ty) : EStateM.Result SymbolError Store OverrideSynthesis :=
  let store := Store.empty.receive ⟨6⟩ sheltered
  synthesizeWith { materialize := false } store.overriddenLookup ⟨5⟩ []
    [⟨.applied "Base" (.invariant argument), ⟨1⟩, [⟨2⟩, ⟨3⟩, ⟨4⟩]⟩] store

theorem offers_sheltered {argument : Ty} (closed : ∀ ref ∈ argument.parameters, ref.owner = ⟨1⟩) :
    (Store.empty.receive ⟨6⟩ sheltered).Offers
      [⟨.applied "Base" (.invariant argument), ⟨1⟩, [⟨2⟩, ⟨3⟩, ⟨4⟩]⟩] := by
  have below : ∀ declaration ∈ sheltered,
    ∀ type ∈ declaration.signatureTypes, ∀ ref ∈ type.parameters,
      ref.owner.number < 6 := by decide
  have own : ∀ declaration ∈ sheltered,
    ∀ type ∈ declaration.signatureTypes, ∀ ref ∈ type.parameters,
      ref.owner = declaration.id → ref.index ∈ declaration.typeParameters.map (·.index) := by decide
  refine ⟨?_, ?_, ?_⟩
  · simp only [List.mem_singleton, forall_eq]
    exact ⟨_, _, rfl, rfl⟩
  · rintro supertype - id - declaration stored
    have listed := (Store.mem_of_get?_receive_empty stored).1
    exact ⟨below declaration listed, own declaration listed⟩
  · simp only [List.mem_singleton, forall_eq]
    rintro variance type ha ref hr
    obtain ⟨rfl, rfl⟩ := TypeArgument.projected.inj (List.mem_singleton.1 ha)
    rw [closed ref hr]
    exact ⟨by decide, by decide⟩

theorem takesUnmodified_sheltered {declaration : Declaration} {argument : Ty}
    (stored : (Store.empty.receive ⟨6⟩ sheltered).get? declaration.id = some declaration)
    (listed : declaration.id ∈ [(⟨2⟩ : DeclId), ⟨3⟩, ⟨4⟩])
    (closed : ∀ ref ∈ argument.parameters, ref.owner = ⟨1⟩)
    (computed : (match shelter argument with
      | .ok synthesis _ =>
        decide (∃ entry ∈ synthesis.set.standIns declaration.id, entry.origin = .inherited)
      | .error _ _ => false) = true) :
    (Store.empty.receive ⟨6⟩ sheltered).TakesUnmodified declaration
      (.ofSupertype ⟨1⟩ (.applied "Base" (.invariant argument))) := by
  have wf : (Store.empty.receive ⟨6⟩ sheltered).WellFormed :=
    (Store.sound_receive_empty (by decide) (by decide) (by decide)).toWellFormed
  have seen : substitutionFor? [⟨.applied "Base" (.invariant argument), ⟨1⟩, [⟨2⟩, ⟨3⟩, ⟨4⟩]⟩]
    declaration.id =
      some (.ofSupertype ⟨1⟩ (.applied "Base" (.invariant argument))) := by
    simp [substitutionFor?, listed]
  cases ok : shelter argument with
  | error e store' => simp [ok] at computed
  | ok synthesis store' =>
    rw [ok] at computed
    exact ⟨{ materialize := false }, (Store.empty.receive ⟨6⟩ sheltered).overriddenLookup, ⟨5⟩, [],
      _, synthesis, store', wf, offers_sheltered closed, ok, stored, seen,
      of_decide_eq_true computed⟩

theorem unapplied_sheltered :
    ∀ type ∈ sheltered[1].types ++ sheltered[2].types, type.Unapplied := by
  have listed : sheltered[1].types ++ sheltered[2].types =
      [.ofParameter ⟨1⟩ 0 "T", .nullableAny, .mk (.parameter ⟨⟨1⟩, 0, "T"⟩) [] true] := rfl
  simp only [listed, List.mem_cons, List.not_mem_nil, or_false, forall_eq_or_imp, forall_eq]
  exact ⟨.parameter, .classifier nofun, .parameter⟩

/-- Through a supertype with a nullable argument, the function that gives a nullable value stays as
it is, though its parameter is replaced. -/
theorem signatureTypes_unmodified_sheltered :
    ∃ declaration ∈ sheltered, ∃ argument : Ty,
      let substitution := Substitution.ofSupertype ⟨1⟩ (.applied "Base" (.invariant argument))
      (Store.empty.receive ⟨6⟩ sheltered).TakesUnmodified declaration substitution ∧
      (∀ type ∈ declaration.types, type.Unapplied) ∧
      substitution.replacement? ⟨⟨1⟩, 0, "T"⟩ = some (.mk (.parameter ⟨⟨1⟩, 0, "T"⟩) [] true) ∧
      ∀ type ∈ declaration.signatureTypes, type.substitute substitution = type := by
  refine ⟨sheltered[2], List.getElem_mem _, .mk (.parameter ⟨⟨1⟩, 0, "T"⟩) [] true, ?_⟩
  intro substitution
  have taken : (Store.empty.receive ⟨6⟩ sheltered).TakesUnmodified sheltered[2] substitution :=
    takesUnmodified_sheltered rfl (by decide) (by decide) (by decide +kernel)
  have plain : ∀ type ∈ sheltered[2].types, type.Unapplied :=
    fun type ht => unapplied_sheltered type (List.mem_append_right _ ht)
  exact ⟨taken, plain, rfl, (signatureTypes_unmodified taken plain).1⟩

/-- A class that extends the class with integers takes the first function unmodified, though the
bound in it changes, and the third one, though the argument in it does. In a class that extends it
with a nullable parameter, the second function refers to a parameter that is replaced by another
type. -/
theorem not_forall_types_unmodified :
    (¬∀ (store : Store) (declaration : Declaration) (substitution : Substitution),
      store.TakesUnmodified declaration substitution →
      (∀ type ∈ declaration.types, type.Unapplied) →
      ∀ type ∈ declaration.types, type.substitute substitution = type) ∧
    (¬∀ (store : Store) (declaration : Declaration) (substitution : Substitution),
      store.TakesUnmodified declaration substitution →
      (∀ type ∈ declaration.types, type.Unapplied) →
      ∀ type ∈ declaration.signatureTypes, ∀ ref ∈ type.parameters, ∀ replacement,
        substitution.replacement? ref = some replacement →
        replacement = .mk (.parameter ref) [] false) ∧
    (¬∀ (store : Store) (declaration : Declaration) (substitution : Substitution),
      store.TakesUnmodified declaration substitution →
      ∀ type ∈ declaration.signatureTypes, type.substitute substitution = type) := by
  let store := Store.empty.receive ⟨6⟩ sheltered
  let ofInt := Substitution.ofSupertype ⟨1⟩ (.applied "Base" (.invariant (.ofClass .int)))
  let parameter : ParameterRef := ⟨⟨1⟩, 0, "T"⟩
  let ofNullable :=
    Substitution.ofSupertype ⟨1⟩ (.applied "Base" (.invariant (.mk (.parameter parameter) [] true)))
  refine ⟨fun claim => ?_, fun claim => ?_, fun claim => ?_⟩
  · have taken : store.TakesUnmodified sheltered[1] ofInt :=
      takesUnmodified_sheltered rfl (by decide) (by decide) (by decide +kernel)
    have plain : ∀ type ∈ sheltered[1].types, type.Unapplied :=
      fun type ht => unapplied_sheltered type (List.mem_append_left _ ht)
    have changed : (Ty.ofParameter ⟨1⟩ 0 "T").substitute ofInt ≠ .ofParameter ⟨1⟩ 0 "T" := by decide
    exact changed (claim store _ ofInt taken plain _ List.mem_cons_self)
  · have taken : store.TakesUnmodified sheltered[2] ofNullable :=
      takesUnmodified_sheltered rfl (by decide) (by decide) (by decide +kernel)
    have plain : ∀ type ∈ sheltered[2].types, type.Unapplied :=
      fun type ht => unapplied_sheltered type (List.mem_append_right _ ht)
    cases claim store _ ofNullable taken plain _ List.mem_cons_self parameter List.mem_cons_self _
      rfl
  · have taken : store.TakesUnmodified sheltered[3] ofInt :=
      takesUnmodified_sheltered rfl (by decide) (by decide) (by decide +kernel)
    let wrapped := Ty.mk (.parameter ⟨⟨4⟩, 0, "U"⟩) [.invariant (.ofParameter ⟨1⟩ 0 "T")] false
    have changed : wrapped.substitute ofInt ≠ wrapped := by decide
    exact changed (claim store _ ofInt taken _ List.mem_cons_self)

end ClassSymbols
