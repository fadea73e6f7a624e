import ClassSymbols.Proofs.Overrides.Rearrangement
import ClassSymbols.Proofs.Overrides.Shapes
import ClassSymbols.Proofs.Overrides.Storing

/-!
# The order of supertypes

The order in which a class lists its supertypes decides which fake override has which id, which
members a clash names, and which member a fake override is copied from. It decides neither whether
there is a conflict nor how the members of the class look.

## Main definitions

* `Signature.Shape` — what two members that would clash in one class have in common.
* `OverrideSynthesis.looks` — how the members of one name came to be members, and their shapes.
* `OverrideSynthesis.clashCount` — the number of clashes of one name and shape.
* `SameInAnyOrder` — what two results have in common.

## Main statements

* `SynthesisInput.Reads.sameInAnyOrder` — two runs over rearranged supertypes.
* `resultsAgree_of_perm` — the order of supertypes does not decide conflicts.
-/

namespace ClassSymbols

/-! ## Shapes -/

/-- The parts of a signature that two members that would clash in one class have in common. -/
structure Signature.Shape where
  kind : MemberKind
  name : String
  receiver : Option Ty
  typeParameterCount : Nat
  valueParameters : List Ty
  deriving DecidableEq

def Signature.shape (signature : Signature) : Shape where
  kind := signature.kind
  name := signature.name
  receiver := signature.receiver
  typeParameterCount := signature.typeParameterCount
  valueParameters := signature.valueParameters

theorem Signature.sameShape_iff {a b : Signature} : a.SameShape b ↔ a.shape = b.shape := by
  simp [SameShape, shape]

namespace OverrideSynthesis

/-- The shape of a stored member or of a fake override that is not stored yet. -/
def shape? (synthesis : OverrideSynthesis) (store : Store) (id : DeclId) : Option Signature.Shape :=
  ((store.insertAll synthesis.pending).signature? id).map (·.shape)

def looks (synthesis : OverrideSynthesis) (store : Store) (name : String) :
    List (MemberOrigin × Option Signature.Shape) :=
  (synthesis.set.group name).map fun member => (member.origin, synthesis.shape? store member.id)

/-- The number of clashes of inherited members called `name` that have a shape in the class with the
given supertypes. -/
def clashCount (synthesis : OverrideSynthesis) (store : Store) (supertypes : List SupertypeMembers)
    (name : String) (shape : Signature.Shape) : Nat :=
  synthesis.conflicts.countP fun conflict =>
    conflict.kind = .inheritedClash ∧ conflict.name = name ∧
      (store.inheritedAs? supertypes conflict.first).map (·.signature.shape) = some shape

end OverrideSynthesis

/-- What the results for two lists of supertypes have in common, if the order of supertypes does not
matter: the failed checks of declared members, the number of clashes of each name and shape, what
declared members override, and the origins and shapes of the members. `before` is the store on which
both were computed. -/
structure SameInAnyOrder (before : Store) (declared : List DeclId)
    (supertypes supertypes' : List SupertypeMembers) (a : OverrideSynthesis) (s : Store)
    (b : OverrideSynthesis) (s' : Store) : Prop where
  incompatible : ∀ conflict reason, conflict.kind = .incompatibleOverride reason →
    (conflict ∈ a.conflicts ↔ conflict ∈ b.conflicts)
  clashes : ∀ name shape, a.clashCount before supertypes name shape =
    b.clashCount before supertypes' name shape
  overridden : ∀ id ∈ declared,
    ∀ other, other ∈ a.set.overriddenBy id ↔ other ∈ b.set.overriddenBy id
  members : ∀ name, (a.looks s name).Perm (b.looks s' name)

namespace SynthesisInput

variable {input : SynthesisInput} {declared : List DeclId}
  {supertypes supertypes' : List SupertypeMembers} {inherited inherited' : List Inherited}
  {next : DeclId} {name : String} {bucket : Bucket} {shape : Signature.Shape}

theorem check_congr {member member' : Inherited} (h : member'.signature = member.signature)
    (d : DeclaredMember) :
    input.check d member' = input.check d member := by
  rw [check, check, h]

/-! ## Checks -/

section Checks

variable (rearranged : Rearranged inherited inherited')
include rearranged

theorem incompatible_of_rearranged {conflict : Conflict} {reason : String}
    (kind : conflict.kind = .incompatibleOverride reason)
    (h : conflict ∈ (input.run inherited).conflicts) :
    conflict ∈ (input.run inherited').conflicts := by
  rcases mem_conflicts_run_iff.1 h with ⟨member, hm, d, hd, found, checked, rfl⟩ |
    ⟨_, _, _, _, _, _, _, _, rfl⟩
  · obtain ⟨member', hm', declaration, signature⟩ := rearranged.exists_mem hm
    refine mem_conflicts_run_iff.2 (.inl ⟨member', hm', d, declaration ▸ hd, found, ?_, ?_⟩)
    · exact (check_congr signature d).trans checked
    · rw [Inherited.id, Inherited.id, declaration]
  · cases kind

theorem overridden_of_rearranged (reads : input.Reads declared supertypes inherited)
    {id other : DeclId} (listed : id ∈ declared)
    (h : other ∈ (input.run inherited).set.overriddenBy id) :
    other ∈ (input.run inherited').set.overriddenBy id := by
  rcases mem_overriddenBy_run_iff.1 h with ⟨member, hm, d, hd, checked, rfl, rfl⟩ |
    ⟨_, _, settles, -, -⟩
  · obtain ⟨member', hm', declaration, signature⟩ := rearranged.exists_mem hm
    refine mem_overriddenBy_run_iff.2 (.inl ⟨member', hm', d, declaration ▸ hd, ?_, rfl, ?_⟩)
    · exact (check_congr signature d).trans checked
    · rw [Inherited.id, Inherited.id, declaration]
  · -- A declared member is stored, and no stored member has the id of a fake override.
    obtain ⟨_, -, found⟩ := exists_mem_of_forall₂_left (mapM_eq_ok_iff.1 reads.resolved) listed
    cases (reads.get?_of_settles settles).symm.trans (Store.resolve_eq_ok_iff.1 found)

end Checks

/-! ## Clashes -/

namespace Collects

variable (collects : input.Collects declared supertypes inherited)
include collects

theorem shape_inheritedAs? {member : Inherited} (hm : member ∈ inherited) :
    (input.store.inheritedAs? supertypes member.id).map (·.signature.shape) =
      some member.signature.shape := by
  rw [collects.mem_inherited_iff.1 hm, Option.map_some]

/-- The clashes of a name and a shape are those in the bucket that has them. -/
theorem clashCount_of_settles (settles : input.Settles inherited next name bucket) :
    (input.outcome inherited).clashCount input.store supertypes name bucket.first.signature.shape =
      (bucket.heads input.lookup).length := by
  rw [← List.length_map, ← collects.clashesIn_eq settles, OverrideSynthesis.clashCount,
    List.countP_eq_length_filter, OverrideSynthesis.clashesIn]
  refine congrArg List.length (List.filter_congr fun conflict hc => ?_)
  rw [decide_eq_decide]
  refine and_congr_right fun clash => ?_
  rcases mem_conflicts_run_iff.1 hc with
    ⟨_, _, _, _, _, _, rfl⟩ | ⟨next', name', bucket', settles', i, head, -, hh, rfl⟩
  · cases clash
  have first := settles'.mem_iff.1 settles'.first_mem
  constructor
  · rintro ⟨rfl, shape⟩
    rw [collects.shape_inheritedAs? first.1, Option.some.injEq, eq_comm, ← Signature.sameShape_iff]
      at shape
    exact .inl (Bucket.mem_ids (settles.mem_iff.2 ⟨first.1, first.2.1, first.2.2.1, shape⟩))
  · intro listed
    obtain ⟨member, hm', hid⟩ : ∃ member ∈ bucket'.members, member.id ∈ bucket.ids := by
      rcases listed with hid | hid
      · exact ⟨_, settles'.first_mem, hid⟩
      · exact ⟨head, List.mem_of_getElem? hh, hid⟩
    have hm := collects.mem_members_of_mem_ids settles (settles'.mem_inherited hm') hid
    obtain ⟨-, rfl⟩ := settles.eq settles' hm hm'
    exact ⟨first.2.1.symm.trans (settles.mem_iff.1 settles.first_mem).2.1,
      collects.shape_inheritedAs? first.1⟩

/-- There is no clash of a name and a shape that no bucket has. -/
theorem clashCount_eq_zero
    (none : ∀ next bucket, input.Settles inherited next name bucket →
      bucket.first.signature.shape ≠ shape) :
    (input.outcome inherited).clashCount input.store supertypes name shape = 0 := by
  rw [OverrideSynthesis.clashCount, List.countP_eq_zero]
  intro conflict hc
  rw [decide_eq_true_eq]
  rintro ⟨clash, rfl, looks⟩
  rcases mem_conflicts_run_iff.1 hc with ⟨_, _, _, _, _, _, rfl⟩ |
    ⟨_, _, bucket, settles, _, _, _, _, rfl⟩
  · cases clash
  · rw [collects.shape_inheritedAs? (settles.mem_inherited settles.first_mem)] at looks
    exact none _ bucket settles (Option.some.inj looks)

end Collects

/-- The first members of rearranged buckets have one shape. -/
theorem Settles.shape_first_eq {inherited' : List Inherited} {next' : DeclId} {name' : String}
    {bucket' : Bucket} (settles' : input.Settles inherited' next' name' bucket')
    (rearranged : Rearranged bucket.members bucket'.members) :
    bucket'.first.signature.shape = bucket.first.signature.shape := by
  obtain ⟨member, hm, -, signature⟩ := rearranged.exists_mem List.mem_cons_self
  have same := (settles'.mem_iff.1 hm).2.2.2
  rw [Bucket.HasShape, signature] at same
  exact Signature.sameShape_iff.1 same

theorem clashCount_eq_of_rearranged (collects : input.Collects declared supertypes inherited)
    (collects' : input.Collects declared supertypes' inherited')
    (rearranged : Rearranged inherited inherited') (name : String) (shape : Signature.Shape) :
    (input.outcome inherited).clashCount input.store supertypes name shape =
      (input.outcome inherited').clashCount input.store supertypes' name shape := by
  by_cases found : ∃ next bucket,
    input.Settles inherited next name bucket ∧ bucket.first.signature.shape = shape
  · obtain ⟨next, bucket, settles, rfl⟩ := found
    obtain ⟨next', bucket', settles', alike⟩ := rearranged.exists_settles settles
    rw [collects.clashCount_of_settles settles, ← settles'.shape_first_eq alike,
      collects'.clashCount_of_settles settles']
    exact Bucket.length_heads_eq_of_perm alike.ids_perm (collects.nodup_ids settles)
  · rw [collects.clashCount_eq_zero fun next bucket settles looks =>
      found ⟨next, bucket, settles, looks⟩,
      collects'.clashCount_eq_zero fun next' bucket' settles' looks => ?_]
    obtain ⟨next, bucket, settles, alike⟩ := rearranged.symm.exists_settles settles'
    exact found ⟨next, bucket, settles, (settles.shape_first_eq alike).trans looks⟩

/-! ## Members -/

def after (input : SynthesisInput) (inherited : List Inherited) : Store :=
  { input.store with next := (input.run inherited).next }

namespace Reads

variable (reads : input.Reads declared supertypes inherited)
include reads

/-- The signature of a member of a result is what it shows once the fake overrides are stored. -/
theorem signature?_insertAll_iff {id : DeclId} {signature : Signature} :
    ((input.after inherited).insertAll (input.run inherited).pending).signature? id =
      some signature ↔
      (input.outcome inherited).Shows input.store id signature := by
  have batch := reads.batch_pending
  have received : (input.after inherited).insertAll (input.run inherited).pending =
      input.store.receive (input.run inherited).next (input.run inherited).pending := rfl
  rw [received]
  unfold OverrideSynthesis.Shows Store.signature?
  constructor
  · intro signed
    obtain ⟨declaration, stored, signed⟩ := Option.bind_eq_some_iff.1 signed
    rcases Store.get?_receive_cases stored with old | ⟨made, same⟩
    · exact .inl (Option.bind_eq_some_iff.2 ⟨declaration, old, signed⟩)
    · exact .inr ⟨declaration, made, same, signed⟩
  · rintro (signed | ⟨fake, made, rfl, signed⟩)
    · obtain ⟨declaration, stored, signed⟩ := Option.bind_eq_some_iff.1 signed
      rw [batch.get?_receive_of_old (reads.allocated stored), stored]
      exact signed
    · rw [batch.get?_receive_of_mem made]
      exact signed

theorem shape?_of_stored {id : DeclId} {declaration : Declaration}
    (stored : input.store.get? id = some declaration) :
    (input.outcome inherited).shape? (input.after inherited) id =
      (input.store.signature? id).map (·.shape) := by
  refine congrArg (Option.map _) (Option.ext fun signature => ?_)
  rw [Store.signature?.eq_def input.store, stored, Option.bind_some]
  exact reads.signature?_insertAll_iff.trans (reads.shows_iff_of_stored stored)

/-- The declared members look as they do where they are declared. -/
theorem looks_start (name : String) :
    (input.start.set.group name).map (fun member =>
      (member.origin, (input.outcome inherited).shape? (input.after inherited) member.id)) =
    (input.start.set.group name).map fun member =>
      (member.origin, (input.store.signature? member.id).map (·.shape)) := by
  refine List.map_congr_left fun member hm => ?_
  have listed := members_start.mem_iff.1 ((OverrideSet.sublist_group _ _).subset hm)
  obtain ⟨declaration, hd, rfl⟩ := List.mem_map.1 listed
  rw [reads.shape?_of_stored (reads.mem_declared_iff.1 hd).2]

variable (offers : input.store.Offers supertypes)
include offers

theorem shape?_representative (settles : input.Settles inherited next name bucket)
    (joined : bucket.Joined input.lookup) :
    (input.outcome inherited).shape? (input.after inherited) (input.representative next bucket).id =
      some bucket.first.signature.shape := by
  have shows := (reads.shows_representative_iff offers settles joined).2 rfl
  have same := (settles.mem_iff.1 (input.specificOf_mem bucket)).2.2.2
  rw [Signature.sameShape_iff.1 same, OverrideSynthesis.shape?]
  exact Option.map_eq_some_iff.2 ⟨_, reads.signature?_insertAll_iff.2 shows, rfl⟩

/-- No two members that stand for buckets look alike. -/
theorem nodup_looks_standInsNamed (name : String) :
    ((input.standInsNamed inherited name).map fun member =>
    (member.origin, (input.outcome inherited).shape? (input.after inherited) member.id)).Nodup := by
  have within : (input.standInsNamed inherited name).Sublist (input.run inherited).set.members := by
    refine List.Sublist.trans ?_ (OverrideSet.sublist_group (input.run inherited).set name)
    rw [group_run]
    exact List.sublist_append_right _ _
  refine List.pairwise_map.2 (((reads.pairwise_distinct offers).sublist within).imp_of_mem ?_)
  intro a b ha hb distinct same
  obtain ⟨next, bucket, settles, joined, rfl⟩ := mem_standInsNamed_iff.1 ha
  obtain ⟨next', bucket', settles', joined', rfl⟩ := mem_standInsNamed_iff.1 hb
  have shapes := (Prod.mk.inj same).2
  rw [reads.shape?_representative offers settles joined,
    reads.shape?_representative offers settles' joined', Option.some.injEq,
    ← Signature.sameShape_iff] at shapes
  have shape := (settles.mem_iff.1 (input.specificOf_mem bucket)).2.2.2
  have shape' := (settles'.mem_iff.1 (input.specificOf_mem bucket')).2.2.2
  exact distinct (.inl (originOf_ne_declared _ _)) _ _
    ((reads.shows_representative_iff offers settles joined).2 rfl)
    ((reads.shows_representative_iff offers settles' joined').2 rfl)
      ((shape.symm.trans shapes).trans shape')

theorem mem_looks_standInsNamed_iff {look : MemberOrigin × Option Signature.Shape} :
    look ∈ (input.standInsNamed inherited name).map (fun member =>
      (member.origin, (input.outcome inherited).shape? (input.after inherited) member.id)) ↔
    ∃ next bucket, input.Settles inherited next name bucket ∧ bucket.Joined input.lookup ∧
      look = (originOf bucket (input.specificOf bucket), some bucket.first.signature.shape) := by
  simp only [List.mem_map, mem_standInsNamed_iff]
  constructor
  · rintro ⟨_, ⟨next, bucket, settles, joined, rfl⟩, rfl⟩
    exact ⟨next, bucket, settles, joined,
      Prod.ext rfl (reads.shape?_representative offers settles joined)⟩
  · rintro ⟨next, bucket, settles, joined, rfl⟩
    exact ⟨_, ⟨next, bucket, settles, joined, rfl⟩,
      Prod.ext rfl (reads.shape?_representative offers settles joined)⟩

end Reads

theorem mem_looks_of_rearranged (rearranged : Rearranged inherited inherited')
    {look : MemberOrigin × Option Signature.Shape}
    (h : ∃ next bucket, input.Settles inherited next name bucket ∧ bucket.Joined input.lookup ∧
      look = (originOf bucket (input.specificOf bucket), some bucket.first.signature.shape)) :
    ∃ next bucket, input.Settles inherited' next name bucket ∧ bucket.Joined input.lookup ∧
      look = (originOf bucket (input.specificOf bucket), some bucket.first.signature.shape) := by
  obtain ⟨next, bucket, settles, joined, rfl⟩ := h
  obtain ⟨next', bucket', settles', alike⟩ := rearranged.exists_settles settles
  refine ⟨next', bucket', settles', (Bucket.joined_iff_of_perm alike.ids_perm).1 joined, ?_⟩
  rw [alike.originOf_eq, settles'.shape_first_eq alike]

/-- Two runs over rearranged supertypes have in common what does not depend on the order. -/
theorem Reads.sameInAnyOrder (reads : input.Reads declared supertypes inherited)
    (reads' : input.Reads declared supertypes' inherited') (offers : input.store.Offers supertypes)
    (offers' : input.store.Offers supertypes') (rearranged : Rearranged inherited inherited') :
    SameInAnyOrder input.store declared supertypes supertypes' (input.outcome inherited)
      (input.after inherited)
      (input.outcome inherited') (input.after inherited') := by
  refine ⟨fun conflict reason kind => ?_,
    fun name shape => ?_, fun id listed other => ?_, fun name => ?_⟩
  · exact ⟨incompatible_of_rearranged rearranged kind,
      incompatible_of_rearranged rearranged.symm kind⟩
  · exact clashCount_eq_of_rearranged reads.toCollects reads'.toCollects rearranged name shape
  · exact ⟨overridden_of_rearranged rearranged reads listed,
      overridden_of_rearranged rearranged.symm reads' listed⟩
  · have split := input.group_run inherited name
    have split' := input.group_run inherited' name
    rw [OverrideSynthesis.looks, OverrideSynthesis.looks, outcome, outcome, split, split',
      List.map_append, List.map_append]
    refine List.Perm.append
      (List.Perm.of_eq ((reads.looks_start name).trans (reads'.looks_start name).symm)) ?_
    refine (List.perm_ext_iff_of_nodup (reads.nodup_looks_standInsNamed offers name)
      (reads'.nodup_looks_standInsNamed offers' name)).2 fun look => ?_
    rw [reads.mem_looks_standInsNamed_iff offers, reads'.mem_looks_standInsNamed_iff offers']
    exact ⟨mem_looks_of_rearranged rearranged, mem_looks_of_rearranged rearranged.symm⟩

end SynthesisInput

/-! ## Syntheses -/

theorem Store.Offers.of_perm {store : Store} {supertypes supertypes' : List SupertypeMembers}
    (offers : store.Offers supertypes) (perm : supertypes.Perm supertypes') :
    store.Offers supertypes' where
  classes supertype hs := offers.classes supertype (perm.mem_iff.2 hs)
  inScope supertype hs := offers.inScope supertype (perm.mem_iff.2 hs)
  arguments supertype hs := offers.arguments supertype (perm.mem_iff.2 hs)

/-- Whether two computations both fail, or both succeed with results in a relation. -/
def ResultsAgree {ε σ α : Type} (relation : α → σ → α → σ → Prop) :
    EStateM.Result ε σ α → EStateM.Result ε σ α → Prop
  | .ok a s, .ok b s' => relation a s b s'
  | .ok _ _, .error _ _ => False
  | .error _ _, .ok _ _ => False
  | .error _ _, .error _ _ => True

section Syntheses

variable {store : Store} {supertypes supertypes' : List SupertypeMembers}
  {options : SynthesisOptions} {owner : DeclId} {declared : List DeclId} {a b : OverrideSynthesis}
  {s s' : Store}

/-- The fake overrides of a result are stored if there is no conflict. -/
theorem synthesize_eq (options : SynthesisOptions) (owner : DeclId) (declared : List DeclId)
    (supertypes : List SupertypeMembers) (store : Store) :
    synthesize options owner declared supertypes store =
      match synthesizeWith options store.overriddenLookup owner declared supertypes store with
      | .ok synthesis s =>
        if synthesis.hasConflicts then .ok synthesis s
        else .ok (synthesis.register s).1 (synthesis.register s).2
      | .error e s => .error e s := by
  unfold synthesize
  simp only [bind, EStateM.bind, synthesizePending_eq]
  split
  · next synthesis s found =>
    rw [found]
    cases conflicting : synthesis.hasConflicts <;> simp only [conflicting] <;> rfl
  · next e s found => rw [found]

/-- Storing the fake overrides of a result changes neither how its members look nor what else is
compared. -/
theorem SameInAnyOrder.register
    (h : SameInAnyOrder store declared supertypes supertypes' a s b s') :
    SameInAnyOrder store declared supertypes supertypes' (a.register s).1 (a.register s).2 b s' :=
  ⟨h.incompatible, h.clashes, h.overridden, h.members⟩

theorem SameInAnyOrder.register_right
    (h : SameInAnyOrder store declared supertypes supertypes' a s b s') :
    SameInAnyOrder store declared supertypes supertypes' a s (b.register s').1 (b.register s').2 :=
  ⟨h.incompatible, h.clashes, h.overridden, h.members⟩

variable (wf : store.WellFormed) (offers : store.Offers supertypes)
  (consistent : store.Consistent supertypes) (perm : supertypes.Perm supertypes')
include wf offers consistent perm

theorem resultsAgree_synthesizeWith (options : SynthesisOptions) (lookup : OverriddenLookup)
    (owner : DeclId) (declared : List DeclId) :
    ResultsAgree (SameInAnyOrder store declared supertypes supertypes')
      (synthesizeWith options lookup owner declared supertypes store)
      (synthesizeWith options lookup owner declared supertypes' store) := by
  unfold synthesizeWith
  cases resolved : declared.mapM store.resolve with
  | error e => trivial
  | ok declarations =>
    cases offered : inheritedMembers store supertypes with
    | error e =>
      cases offered' : inheritedMembers store supertypes' with
      | error e' => trivial
      | ok inherited' =>
        obtain ⟨inherited, found⟩ := exists_inheritedMembers_of_perm perm.symm offered'
        cases offered.symm.trans found
    | ok inherited =>
      obtain ⟨inherited', offered'⟩ := exists_inheritedMembers_of_perm perm offered
      rw [offered']
      let input : SynthesisInput := ⟨store, options, lookup, owner, declarations⟩
      have reads : input.Reads declared supertypes inherited :=
        ⟨⟨wf.keyed, resolved, offered⟩, wf.allocated⟩
      have reads' : input.Reads declared supertypes' inherited' :=
        ⟨⟨wf.keyed, resolved, offered'⟩, wf.allocated⟩
      exact reads.sameInAnyOrder reads' offers (offers.of_perm perm)
        (rearranged_inheritedMembers consistent perm wf.keyed offered offered')

/-- The order of supertypes does not decide conflicts: if a class lists its supertypes in another
order, its synthesis fails as well or gives a result with the same failed checks, as many clashes of
each name and shape, the same overridden members of declared members, and members that look alike.
So does the synthesis that may store something. -/
theorem resultsAgree_of_perm (options : SynthesisOptions) (lookup : OverriddenLookup)
    (owner : DeclId) (declared : List DeclId) :
    ResultsAgree (SameInAnyOrder store declared supertypes supertypes')
      (synthesizeWith options lookup owner declared supertypes store)
      (synthesizeWith options lookup owner declared supertypes' store) ∧
    ResultsAgree (SameInAnyOrder store declared supertypes supertypes')
      (synthesize options owner declared supertypes store)
      (synthesize options owner declared supertypes' store) := by
  refine ⟨resultsAgree_synthesizeWith wf offers consistent perm options lookup owner declared, ?_⟩
  have agree :=
    resultsAgree_synthesizeWith wf offers consistent perm options store.overriddenLookup owner
      declared
  rw [synthesize_eq, synthesize_eq]
  cases found : synthesizeWith options store.overriddenLookup owner declared supertypes store with
  | error e s =>
    cases found' :
      synthesizeWith options store.overriddenLookup owner declared supertypes' store with
    | error e' s' => trivial
    | ok b s' =>
      rw [found, found'] at agree
      cases agree
  | ok a s =>
    cases found' :
      synthesizeWith options store.overriddenLookup owner declared supertypes' store with
    | error e' s' =>
      rw [found, found'] at agree
      cases agree
    | ok b s' =>
      rw [found, found'] at agree
      have same : SameInAnyOrder store declared supertypes supertypes' a s b s' := agree
      cases ha : a.hasConflicts <;> cases hb : b.hasConflicts <;> simp only [ha, hb]
      · exact same.register.register_right
      · exact same.register
      · exact same.register_right
      · exact same

end Syntheses

/-- Two classes that declare `f` each, and a function `g` that one of them overrides. The second
class inherits the function `h` of the first one. The last function is another `h` with a wider
result type. -/
def siblings : List Declaration :=
  let function (name : String) (id owner : DeclId) (returnType : Ty) (overridden : List DeclId) :
      Declaration :=
    { id, name, container := some owner, kind := .function { returnType, overridden } }
  [.plainClass ⟨1⟩ "A" [] [⟨3⟩, ⟨4⟩, ⟨5⟩], .plainClass ⟨2⟩ "B" [] [⟨6⟩, ⟨7⟩],
    function "f" ⟨3⟩ ⟨1⟩ .nullableAny [], function "g" ⟨4⟩ ⟨1⟩ .nullableAny [],
    function "h" ⟨5⟩ ⟨1⟩ (.ofClass .int) [], function "f" ⟨6⟩ ⟨2⟩ .nullableAny [],
    function "g" ⟨7⟩ ⟨2⟩ .nullableAny [⟨4⟩], function "h" ⟨8⟩ ⟨9⟩ .nullableAny []]

/-- A class that declares the last function and extends the two classes has a clash, a failed check
and a bridge, whichever of them it lists first. -/
theorem resultsAgree_of_siblings :
    let store := Store.empty.receive ⟨10⟩ siblings
    let supertypes : List SupertypeMembers :=
      [⟨.ofClass ⟨"", "A", false⟩, ⟨1⟩, [⟨3⟩, ⟨4⟩, ⟨5⟩]⟩,
        ⟨.ofClass ⟨"", "B", false⟩, ⟨2⟩, [⟨6⟩, ⟨7⟩, ⟨5⟩]⟩]
    (∃ synthesis store', synthesizeWith {} store.overriddenLookup ⟨9⟩ [⟨8⟩] supertypes store =
        .ok synthesis store' ∧
      synthesis.conflicts.map (fun conflict => (conflict.first, conflict.second)) =
        [(⟨3⟩, ⟨6⟩), (⟨8⟩, ⟨5⟩)] ∧
      (synthesis.set.group "g").map (·.origin) = [.bridge]) ∧
    ResultsAgree (SameInAnyOrder store [⟨8⟩] supertypes supertypes.reverse)
      (synthesizeWith {} store.overriddenLookup ⟨9⟩ [⟨8⟩] supertypes store)
      (synthesizeWith {} store.overriddenLookup ⟨9⟩ [⟨8⟩] supertypes.reverse store) := by
  intro store supertypes
  have wf : store.WellFormed :=
    (Store.sound_receive_empty (by decide) (by decide) (by decide)).toWellFormed
  have offers : store.Offers supertypes := by
    refine ⟨?_, ?_, ?_⟩
    · simp only [supertypes, List.mem_cons, List.not_mem_nil, or_false, forall_eq_or_imp, forall_eq]
      exact ⟨⟨_, _, rfl, rfl⟩, _, _, rfl, rfl⟩
    · rintro supertype - id - declaration stored
      have closed : ∀ declaration ∈ siblings,
          ∀ type ∈ declaration.signatureTypes, type.parameters = [] := by
        decide
      have listed := (Store.mem_of_get?_receive_empty stored).1
      refine ⟨fun type ht ref hr => ?_, fun type ht ref hr => ?_⟩ <;>
        rw [closed declaration listed type ht] at hr <;> cases hr
    · have plain : ∀ supertype ∈ supertypes, supertype.supertype.arguments = [] := by decide
      rintro supertype hs variance type ha
      rw [plain supertype hs] at ha
      cases ha
  have consistent : store.Consistent supertypes := by
    have plain : ∀ supertype ∈ supertypes,
        Substitution.ofSupertype supertype.owner supertype.supertype = .identity := by
      simp only [supertypes, List.mem_cons, List.not_mem_nil, or_false, forall_eq_or_imp, forall_eq]
      exact ⟨rfl, rfl⟩
    intro a ha b hb id _ _ declaration _
    rw [plain a ha, plain b hb]
  have computed : (match synthesizeWith {} store.overriddenLookup ⟨9⟩ [⟨8⟩] supertypes store with
      | .ok synthesis _ => decide
        (synthesis.conflicts.map (fun conflict => (conflict.first, conflict.second)) =
          [(⟨3⟩, ⟨6⟩), (⟨8⟩, ⟨5⟩)] ∧
          (synthesis.set.group "g").map (·.origin) = [.bridge])
      | .error _ _ => false) = true := by decide +kernel
  refine ⟨?_, (resultsAgree_of_perm wf offers consistent (List.reverse_perm supertypes).symm {}
    store.overriddenLookup ⟨9⟩ [⟨8⟩]).1⟩
  cases ok : synthesizeWith {} store.overriddenLookup ⟨9⟩ [⟨8⟩] supertypes store with
  | error e store' => simp [ok] at computed
  | ok synthesis store' =>
    rw [ok] at computed
    exact ⟨synthesis, store', rfl, of_decide_eq_true computed⟩

end ClassSymbols
