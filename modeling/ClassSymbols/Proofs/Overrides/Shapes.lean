import ClassSymbols.Proofs.Overrides.Bridges
import ClassSymbols.Proofs.Store.Filling

/-!
# Shapes of effective members

An effective member that is not declared looks as the member that it was made from looks in the
class. No declared member has that shape, since it would bind the member, and no two buckets have
one shape. So members of a class clash only if all of them are declared.

## Main definitions

* `OverrideSynthesis.Shows` — the signatures of the members of a result.
* `Store.Offers` — supertypes whose members and arguments are in scope.

## Main statements

* `SynthesisInput.Reads.shows_representative_iff` — how the member that stands for a bucket looks.
* `pairwise_shapes` — no two members of a group have one shape unless both are declared.
-/

namespace ClassSymbols

/-- Whether a signature is that of a stored member or of a fake override that is not stored yet. -/
def OverrideSynthesis.Shows (synthesis : OverrideSynthesis) (store : Store) (id : DeclId)
    (signature : Signature) : Prop :=
  store.signature? id = some signature ∨
    ∃ fake ∈ synthesis.pending, fake.id = id ∧ Signature.of? fake .identity = some signature

/-- Whether the types of what supertypes offer are in scope: the members refer to their own type
parameters by their indices, the arguments of a supertype do not refer to those of its members, and
nothing refers to what comes later. -/
structure Store.Offers (store : Store) (supertypes : List SupertypeMembers) : Prop where
  classes : ∀ supertype ∈ supertypes, ∃ data, store.IsClass supertype.owner data
  inScope : ∀ supertype ∈ supertypes, ∀ id ∈ supertype.members, ∀ declaration,
    store.get? id = some declaration → declaration.Scoped store.next
  arguments : ∀ supertype ∈ supertypes, ∀ variance type,
    .projected variance type ∈ supertype.supertype.arguments → ∀ ref ∈ type.parameters,
      ref.owner ∉ supertype.members ∧ ref.owner.number < store.next.number

namespace SynthesisInput

variable {input : SynthesisInput} {declared : List DeclId} {supertypes : List SupertypeMembers}
  {inherited : List Inherited}

namespace Reads

variable (reads : input.Reads declared supertypes inherited)
include reads

/-- No fake override of a run has the id of a stored declaration. -/
theorem shows_iff_of_stored {id : DeclId} {declaration : Declaration}
    (stored : input.store.get? id = some declaration) {signature : Signature} :
    (input.outcome inherited).Shows input.store id signature ↔
      Signature.of? declaration .identity = some signature := by
  have unmade : ∀ fake ∈ (input.run inherited).pending, fake.id ≠ id := by
    rintro fake hf rfl
    have new := reads.batch_pending.new fake hf
    have old := reads.wellFormed.allocated stored
    omega
  unfold OverrideSynthesis.Shows Store.signature?
  rw [stored, Option.bind_some]
  exact or_iff_left fun ⟨fake, hf, same, _⟩ => unmade fake hf same

variable (offers : input.store.Offers supertypes)
include offers

theorem scoped_of_mem {member : Inherited} (hm : member ∈ inherited) :
    member.declaration.Scoped input.store.next := by
  obtain ⟨supertype, hs, listed⟩ := reads.listed hm
  exact offers.inScope supertype hs _ listed _ (reads.get?_eq hm)

theorem foreign_of_mem {member : Inherited} (hm : member ∈ inherited) :
    member.substitution.Foreign member.id input.store.next := by
  obtain ⟨stored, seen, -, -⟩ := Store.inheritedAs?_eq_some_iff.1 (reads.mem_inherited_iff.1 hm)
  obtain ⟨⟨⟨head, arguments, nullable⟩, owner, members⟩, found, e⟩ := Option.map_eq_some_iff.1 seen
  have hs := List.mem_of_find?_eq_some found
  have listed : member.id ∈ members := by simpa using List.find?_some found
  -- The substitution depends on the arguments alone, so the head may be that of any class.
  have unheaded : member.substitution =
      Substitution.ofSupertype owner (.mk (.classifier .any) arguments nullable) := e.symm
  rw [unheaded]
  refine Substitution.foreign_ofSupertype ?_ fun ref hr => ?_
  · rintro rfl
    obtain ⟨data, declaration, stored', hc⟩ := offers.classes _ hs
    obtain rfl := Option.some.inj (stored.symm.trans stored')
    rw [Declaration.class?_eq_none_of_isCallable (reads.isCallable hm)] at hc
    cases hc
  · obtain headed | ⟨variance, type, ha, hr⟩ := Ty.mem_parameters_mk.1 hr
    · cases headed
    · obtain ⟨unlisted, below⟩ := offers.arguments _ hs variance type ha ref hr
      exact ⟨fun same => unlisted (same ▸ listed), below⟩

variable {next : DeclId} {name : String} {bucket : Bucket}
  (settles : input.Settles inherited next name bucket) (joined : bucket.Joined input.lookup)
include settles joined

/-- The member that stands for a bucket looks as the member that it was made from looks in the
class. -/
theorem shows_representative_iff {signature : Signature} :
    (input.outcome inherited).Shows input.store (input.representative next bucket).id signature ↔
      signature = (input.specificOf bucket).signature := by
  have specific := settles.mem_inherited (input.specificOf_mem bucket)
  cases keeps : input.keeps bucket
  · have made : input.Materializes bucket := ⟨joined, keeps⟩
    have looks := reads.signature_fakeFor settles (reads.scoped_of_mem offers specific)
      (reads.foreign_of_mem offers specific)
    rw [id_representative_of_not_keeps keeps, OverrideSynthesis.Shows, Store.signature?,
      reads.get?_of_settles settles]
    constructor
    · rintro (none | ⟨fake, hf, same, signed⟩)
      · cases none
      · obtain ⟨next', name', bucket', settles', made', rfl⟩ := mem_pending_run_iff.1 hf
        obtain rfl : next' = next := same
        obtain rfl := settles'.eq_of_materializes settles made' made
        exact Option.some.inj (signed.symm.trans looks)
    · rintro rfl
      exact .inr ⟨_, settles.fakeFor_mem_pending made, rfl, looks⟩
  · obtain ⟨-, unmodified, -⟩ := keeps_iff.1 keeps
    have looks : Signature.of? bucket.first.declaration .identity = some bucket.first.signature :=
      beq_iff_eq.1 unmodified
    rw [specificOf_of_keeps keeps] at specific ⊢
    have stored := reads.get?_eq specific
    rw [representative_of_keeps keeps, reads.shows_iff_of_stored stored, looks, Option.some.injEq,
      eq_comm]

end Reads

/-! ## Members of one shape -/

/-- Whether two members have different shapes, unless both are declared. -/
def Distinct (input : SynthesisInput) (inherited : List Inherited) (a b : EffectiveMember) : Prop :=
  a.origin ≠ .declared ∨ b.origin ≠ .declared → ∀ s t,
    (input.outcome inherited).Shows input.store a.id s →
    (input.outcome inherited).Shows input.store b.id t → ¬s.SameShape t

theorem Distinct.symm {a b : EffectiveMember} (h : input.Distinct inherited a b) :
    input.Distinct inherited b a := fun synthesized s t hs ht same =>
  h synthesized.symm t s ht hs same.symm

namespace Reads

variable (reads : input.Reads declared supertypes inherited)
  (offers : input.store.Offers supertypes) {next next' : DeclId} {name name' : String}
  {bucket bucket' : Bucket} (settles : input.Settles inherited next name bucket)
  (joined : bucket.Joined input.lookup)
include reads offers settles joined

/-- A declared member does not look as a member that stands for a bucket: it would bind the members
of the bucket. -/
theorem distinct_declared {declaration : Declaration} (hd : declaration ∈ input.declared) :
    input.Distinct inherited ⟨declaration.id, .declared⟩ (input.representative next bucket) := by
  intro _ s t hs ht same
  obtain ⟨listed, stored⟩ := reads.mem_declared_iff.1 hd
  obtain rfl := (reads.shows_representative_iff offers settles joined).1 ht
  obtain ⟨specific, -, free, -⟩ := settles.mem_iff.1 (input.specificOf_mem bucket)
  have signed : input.store.signature? declaration.id = some s := by
    rw [Store.signature?, stored]
    exact (reads.shows_iff_of_stored stored).1 hs
  exact free ((reads.binds_iff specific).2 ⟨declaration.id, s, listed, signed, same⟩)

/-- The members that stand for two buckets do not look alike: one bucket would hold the members of
both. -/
theorem distinct_representatives (settles' : input.Settles inherited next' name' bucket')
    (joined' : bucket'.Joined input.lookup)
    (apart : ∀ member ∈ bucket.members, member ∉ bucket'.members) :
    input.Distinct inherited (input.representative next bucket)
      (input.representative next' bucket') := by
  intro _ s t hs ht same
  obtain rfl := (reads.shows_representative_iff offers settles joined).1 hs
  obtain rfl := (reads.shows_representative_iff offers settles' joined').1 ht
  obtain ⟨specific, named, free, shape⟩ := settles.mem_iff.1 (input.specificOf_mem bucket)
  obtain ⟨specific', named', -, shape'⟩ := settles'.mem_iff.1 (input.specificOf_mem bucket')
  have sameName : name = name' := by
    rw [← named, ← named', ← reads.signature_name_eq specific, ← reads.signature_name_eq specific']
    exact same.2.1
  refine apart _ (input.specificOf_mem bucket) (settles'.mem_iff.2 ⟨specific, ?_, free, ?_⟩)
  · rw [named, sameName]
  · exact shape'.trans same.symm

omit settles joined in
/-- Two members of a class have different shapes, unless both are declared. -/
theorem pairwise_distinct :
    (input.run inherited).set.members.Pairwise (input.Distinct inherited) := by
  refine (members_run.pairwise_iff Distinct.symm).2 (List.pairwise_append.2 ⟨?_, ?_, ?_⟩)
  · refine List.pairwise_map.2 (List.pairwise_of_forall fun a b => ?_)
    rintro (synthesized | synthesized) <;> exact absurd rfl synthesized
  · refine List.pairwise_flatMap.2 ⟨fun stamp hs => ?_, ?_⟩
    · obtain ⟨next, _ | ⟨name, bucket⟩⟩ := stamp
      · simp [members_check]
      · by_cases joined : bucket.Joined input.lookup
        · simp [members_settle_of_joined joined]
        · simp [members_settle_of_not_joined joined]
    · refine pairwise_settled.imp_of_mem fun {a b} ha hb apart => ?_
      obtain ⟨next, _ | ⟨name, bucket⟩⟩ := a
      · simp [members_check]
      obtain ⟨next', _ | ⟨name', bucket'⟩⟩ := b
      · simp [members_check]
      by_cases joined : bucket.Joined input.lookup
      · by_cases joined' : bucket'.Joined input.lookup
        · simpa [members_settle_of_joined joined, members_settle_of_joined joined'] using
            reads.distinct_representatives offers ha joined hb joined' apart
        · simp [members_settle_of_not_joined joined']
      · simp [members_settle_of_not_joined joined]
  · intro a ha b hb
    obtain ⟨declaration, hd, rfl⟩ := List.mem_map.1 ha
    obtain ⟨⟨next, _ | ⟨name, bucket⟩⟩, hs, hb⟩ := List.mem_flatMap.1 hb
    · simp [members_check] at hb
    · by_cases joined : bucket.Joined input.lookup
      · rw [members_settle_of_joined joined] at hb
        obtain rfl := List.mem_singleton.1 hb
        exact reads.distinct_declared offers hs joined hd
      · simp [members_settle_of_not_joined joined] at hb

end Reads

end SynthesisInput

theorem OverrideSet.sublist_group (set : OverrideSet) (name : String) :
    (set.group name).Sublist set.members := by
  unfold group members
  cases found : set.groups.get? name with
  | none => exact List.nil_sublist _
  | some group =>
    have listed : group ∈ set.groups.values :=
      List.mem_map.2 ⟨(name, group), (OrderedMap.mem_entries_iff _).2 found, rfl⟩
    exact List.sublist_flatten_of_mem listed

/-- Every member of a group that is not declared has a signature, and no other member of the group
has its shape. -/
theorem pairwise_shapes {store store' : Store} {options : SynthesisOptions}
    {lookup : OverriddenLookup} {owner : DeclId} {declared : List DeclId}
    {supertypes : List SupertypeMembers} {synthesis : OverrideSynthesis} (wf : store.WellFormed)
    (offers : store.Offers supertypes)
    (ok : synthesizeWith options lookup owner declared supertypes store = .ok synthesis store')
    (name : String) :
    (∀ member ∈ synthesis.set.group name, member.origin ≠ .declared →
      ∃ signature, synthesis.Shows store' member.id signature) ∧
    (synthesis.set.group name).Pairwise fun a b =>
      a.origin ≠ .declared ∨ b.origin ≠ .declared → ∀ s t,
        synthesis.Shows store' a.id s → synthesis.Shows store' b.id t → ¬s.SameShape t := by
  obtain ⟨declarations, inherited, reads, rfl, rfl⟩ := (synthesizeWith_eq_ok_iff wf).1 ok
  have within := OverrideSet.sublist_group
    (SynthesisInput.run ⟨store, options, lookup, owner, declarations⟩ inherited).set name
  refine ⟨fun member hm synthesized => ?_, (reads.pairwise_distinct offers).sublist within⟩
  rcases SynthesisInput.mem_members_run_iff.1 (within.subset hm) with
    ⟨_, _, rfl⟩ | ⟨next, name, bucket, settles, joined, rfl⟩
  · exact absurd rfl synthesized
  · exact ⟨_, (reads.shows_representative_iff offers settles joined).2 rfl⟩

/-- A class with a parameter and a function that takes a value of it and one of a parameter of its
own, a class with a function without parameters, and a function that takes one integer. -/
def overloads : List Declaration :=
  let function (id owner : DeclId) (typeParameters : List TypeParameter) (types : List Ty) :
      Declaration :=
    { id, name := "f", container := some owner, kind := .function {
        typeParameters, valueParameters := types.map (⟨"x", ·, none, false, false, false, []⟩)
        returnType := .nullableAny } }
  [.plainClass ⟨1⟩ "A" [] [⟨3⟩], .plainClass ⟨2⟩ "B" [] [⟨4⟩],
    function ⟨3⟩ ⟨1⟩ [⟨0, "R", 0, ⟨3⟩, .invariant, false, []⟩]
      [.ofParameter ⟨1⟩ 0 "T", .ofParameter ⟨3⟩ 0 "R"],
    function ⟨4⟩ ⟨2⟩ [] [], function ⟨5⟩ ⟨6⟩ [] [.ofClass .int]]

/-- A class that declares the last function and extends the other two classes has a function of each
shape: its own one, a fake override, and an inherited one that represents itself. -/
theorem pairwise_shapes_overloads :
    let store := Store.empty.receive ⟨7⟩ overloads
    let supertypes : List SupertypeMembers :=
      [⟨(Ty.ofClass ⟨"", "A", false⟩).withArguments [.projected .invariant (.ofClass .int)], ⟨1⟩,
        [⟨3⟩]⟩,
        ⟨.ofClass ⟨"", "B", false⟩, ⟨2⟩, [⟨4⟩]⟩]
    ∃ synthesis store',
      synthesizeWith { materialize := false } store.overriddenLookup ⟨6⟩ [⟨5⟩] supertypes
        store = .ok synthesis store' ∧
      (synthesis.set.group "f").map (·.origin) = [.declared, .bridge, .inherited] ∧
      (∀ member ∈ synthesis.set.group "f", member.origin ≠ .declared →
        ∃ signature, synthesis.Shows store' member.id signature) ∧
      (synthesis.set.group "f").Pairwise fun a b =>
        a.origin ≠ .declared ∨ b.origin ≠ .declared → ∀ s t,
          synthesis.Shows store' a.id s → synthesis.Shows store' b.id t → ¬s.SameShape t := by
  intro store supertypes
  have wf : store.WellFormed :=
    (Store.sound_receive_empty (by decide) (by decide) (by decide)).toWellFormed
  have offers : store.Offers supertypes := by
    refine ⟨?_, ?_, ?_⟩
    · simp only [supertypes, List.mem_cons, List.not_mem_nil, or_false, forall_eq_or_imp, forall_eq]
      exact ⟨⟨_, _, rfl, rfl⟩, _, _, rfl, rfl⟩
    · rintro supertype - id - declaration stored
      have below : ∀ declaration ∈ overloads,
        ∀ type ∈ declaration.signatureTypes, ∀ ref ∈ type.parameters,
          ref.owner.number < 7 := by decide
      have own : ∀ declaration ∈ overloads,
        ∀ type ∈ declaration.signatureTypes, ∀ ref ∈ type.parameters,
          ref.owner = declaration.id → ref.index ∈ declaration.typeParameters.map (·.index) := by
            decide
      have listed := (Store.mem_of_get?_receive_empty stored).1
      exact ⟨below declaration listed, own declaration listed⟩
    · rintro ⟨⟨head, arguments, nullable⟩, owner, members⟩ hs variance type ha ref hr
      have closed : ∀ supertype ∈ supertypes, supertype.supertype.parameters = [] := by decide
      have mentioned : ref ∈ (Ty.mk head arguments nullable).parameters :=
        Ty.mem_parameters_mk.2 (.inr ⟨variance, type, ha, hr⟩)
      simp [closed _ hs] at mentioned
  have computed :
    (match synthesizeWith { materialize := false } store.overriddenLookup ⟨6⟩ [⟨5⟩] supertypes
      store with
      | .ok synthesis _ =>
        decide ((synthesis.set.group "f").map (·.origin) = [.declared, .bridge, .inherited])
      | .error _ _ => false) = true := by decide +kernel
  cases ok :
    synthesizeWith { materialize := false } store.overriddenLookup ⟨6⟩ [⟨5⟩] supertypes store with
  | error e store' => simp [ok] at computed
  | ok synthesis store' =>
    rw [ok] at computed
    exact ⟨synthesis, store', rfl, of_decide_eq_true computed, pairwise_shapes wf offers ok "f"⟩

end ClassSymbols
