import ClassSymbols.Proofs.Overrides.Heads
import ClassSymbols.Proofs.Overrides.StandIns
import ClassSymbols.Proofs.Store.Filling

/-!
# Clashes of inherited members

The inherited members of one shape that no declared member has become one effective member if chains
of members that meet connect them. Otherwise they become none, and a conflict is reported for each
of their components but the first one.

## Main definitions

* `OverrideSynthesis.clashesIn` — the clashes in a bucket.
* `OverrideSynthesis.membersFrom` — the effective members that come from a bucket.
* `Bucket.Verdict` — what becomes of a bucket.

## Main statements

* `SynthesisInput.Collects.clashesIn_eq`, `SynthesisInput.Collects.membersFrom_perm` — what settling
  a bucket adds.
* `verdict_of_shape` — what becomes of each bucket.
-/

namespace ClassSymbols

/-! ## What comes from a bucket -/

namespace OverrideSynthesis

/-- The clashes of members of a bucket, in the order in which they are reported. -/
def clashesIn (synthesis : OverrideSynthesis) (bucket : Bucket) : List Conflict :=
  synthesis.conflicts.filter fun conflict =>
    conflict.kind = .inheritedClash ∧ (conflict.first ∈ bucket.ids ∨ conflict.second ∈ bucket.ids)

/-- Whether an effective member comes from a bucket. An inherited member represents itself unless
fake overrides are made for such members too; any other one that is not declared is a fake
override. -/
def ComesFrom (synthesis : OverrideSynthesis) (options : SynthesisOptions) (bucket : Bucket)
    (member : EffectiveMember) : Prop :=
  member.origin ≠ .declared ∧
    if member.origin = .inherited ∧ options.materialize = false then member.id ∈ bucket.ids
    else ∃ fake ∈ synthesis.pending, fake.id = member.id ∧ ∃ x ∈ fake.overridden, x ∈ bucket.ids

open Classical in
noncomputable def membersFrom (synthesis : OverrideSynthesis) (options : SynthesisOptions)
    (bucket : Bucket) : List EffectiveMember :=
  synthesis.set.members.filter (synthesis.ComesFrom options bucket)

end OverrideSynthesis

namespace SynthesisInput

variable {input : SynthesisInput} {declared : List DeclId} {supertypes : List SupertypeMembers}
  {inherited : List Inherited} {next next' : DeclId} {name name' : String} {bucket bucket' : Bucket}

/-- The clashes of a bucket are those of its first member with the first members of its other
components. -/
theorem conflicts_settle (nodup : bucket.ids.Nodup) :
    (input.additions next (.settle name bucket)).conflicts = (bucket.heads input.lookup).map
      fun second => ⟨name, bucket.first.id, second.id, .inheritedClash⟩ := by
  by_cases joined : bucket.Joined input.lookup
  · rw [input.additions_settle_of_joined joined, (Bucket.joined_iff_heads nodup).1 joined]
    cases keeps : input.keeps bucket <;> simp [standIn, keeps]
  · obtain ⟨first, others, found, eq⟩ := input.additions_settle_of_not_joined joined next name
    rw [eq]
    exact Bucket.clashes_eq nodup found

/-- The member that stands for a joined bucket is in the group of its name. -/
theorem representative_mem_group (settles : input.Settles inherited next name bucket)
    (joined : bucket.Joined input.lookup) :
    input.representative next bucket ∈ (input.run inherited).set.group name := by
  rw [group_run]
  exact List.mem_append_right _ (mem_standInsNamed_iff.2 ⟨next, bucket, settles, joined, rfl⟩)

/-- A settled bucket holds all members of its shape that no declared member has, in their order. -/
theorem Settles.members_eq (settles : input.Settles inherited next name bucket) :
    bucket.members = inherited.filter fun member => bucket.HasShape member ∧
      member.declaration.name = name ∧ input.isBound (input.declaredNamed name) member = false := by
  have settled := settle_mem_events_iff.1 (mem_stamped_iff.2 ⟨_, settles⟩)
  rw [(bucketed_bucketByShape _).members_eq bucket settled, List.filter_filter, List.filter_filter]
  refine List.filter_congr fun member _ => ?_
  simp [Bool.and_comm, and_left_comm]

namespace Collects

variable (collects : input.Collects declared supertypes inherited)
include collects

/-- The members of one shape that no declared member has are a bucket of the run. -/
theorem exists_settles_of_shape
    (shape : bucket.members = inherited.filter fun member => bucket.HasShape member)
    (unbound : ¬input.Binds bucket.first) :
    ∃ next, input.Settles inherited next bucket.first.declaration.name bucket := by
  have first : bucket.first ∈ inherited := by
    have listed : bucket.first ∈ bucket.members := List.mem_cons_self
    rw [shape] at listed
    exact (List.mem_filter.1 listed).1
  obtain ⟨next, found, settles, hf⟩ := exists_settles first unbound
  have same : found.HasShape bucket.first := (settles.mem_iff.1 hf).2.2.2
  have members : found.members = bucket.members := by
    rw [settles.members_eq, shape]
    refine List.filter_congr fun member hm => ?_
    rw [decide_eq_decide]
    constructor
    · rintro ⟨like, -, -⟩
      exact same.symm.trans like
    · intro like
      have named : bucket.first.declaration.name = member.declaration.name := by
        rw [← collects.signature_name_eq first, ← collects.signature_name_eq hm]
        exact like.2.1
      refine ⟨same.trans like, named.symm, ?_⟩
      rw [named, ← Bool.not_eq_true, isBound_iff]
      rintro ⟨declared, hd, binds⟩
      exact unbound ⟨declared, named ▸ hd, binds.trans like.symm⟩
  obtain ⟨firstFound, othersFound⟩ := found
  obtain ⟨rfl, rfl⟩ := List.cons.inj members
  exact ⟨next, settles⟩

variable (settles : input.Settles inherited next name bucket)
include settles

theorem mem_members_of_mem_ids {member : Inherited} (hm : member ∈ inherited)
    (hid : member.id ∈ bucket.ids) :
    member ∈ bucket.members := by
  obtain ⟨other, ho, same⟩ := List.mem_map.1 hid
  exact collects.eq_of_id_eq (settles.mem_inherited ho) hm same ▸ ho

/-- The clashes in a bucket are those that settling it adds. -/
theorem clashesIn_eq : (input.outcome inherited).clashesIn bucket =
    (bucket.heads input.lookup).map fun second =>
      ⟨name, bucket.first.id, second.id, .inheritedClash⟩ := by
  rw [← conflicts_settle (collects.nodup_ids settles), OverrideSynthesis.clashesIn, outcome,
    conflicts_run, log, logFrom, List.flatMap_map, List.filter_flatMap]
  refine (flatMap_eq_of_pairwise pairwise_settled settles fun stamp hs apart => ?_).trans ?_
  · obtain ⟨at_next, _ | ⟨name', bucket'⟩⟩ := stamp
    · refine List.filter_eq_nil_iff.2 fun conflict hc => ?_
      obtain ⟨_, -, rfl⟩ := mem_conflicts_check_iff.1 hc
      simp
    · have apart : ∀ member ∈ bucket'.members, member.id ∉ bucket.ids := by
        intro member hm hid
        have hb := collects.mem_members_of_mem_ids settles ((Settles.mem_iff hs).1 hm).1 hid
        rcases apart with apart | apart
        · exact apart member hb hm
        · exact apart member hm hb
      refine List.filter_eq_nil_iff.2 fun conflict hc => ?_
      obtain ⟨i, head, -, hh, rfl⟩ := mem_conflicts_settle_iff.1 hc
      simp [apart _ List.mem_cons_self, apart head (List.mem_of_getElem? hh)]
  · refine List.filter_eq_self.2 fun conflict hc => ?_
    obtain ⟨i, head, -, hh, rfl⟩ := mem_conflicts_settle_iff.1 hc
    have first : bucket.first.id ∈ bucket.ids := Bucket.mem_ids List.mem_cons_self
    simp [first]

/-- What stands for another bucket does not come from this one. -/
theorem comesFrom_representative_iff (settles' : input.Settles inherited next' name' bucket')
    (joined' : bucket'.Joined input.lookup) :
    (input.outcome inherited).ComesFrom input.options bucket (input.representative next' bucket') ↔
      bucket' = bucket := by
  have same_of_mem {member : Inherited} (h' : member ∈ bucket'.members)
    (h : member ∈ bucket.members) :
      bucket' = bucket := (settles'.eq settles h' h).2
  have made : (input.representative next' bucket').origin =
      originOf bucket' (input.specificOf bucket') :=
    rfl
  rw [OverrideSynthesis.ComesFrom, made, and_iff_right (originOf_ne_declared _ _)]
  cases keeps : input.keeps bucket'
  · have fresh : ¬(originOf bucket' (input.specificOf bucket') = .inherited ∧
        input.options.materialize = false) := by
      simpa [SynthesisInput.keeps] using keeps
    rw [if_neg fresh, id_representative_of_not_keeps keeps]
    constructor
    · rintro ⟨fake, hf, hid, x, listed, hx⟩
      obtain ⟨n, m, b, hb, madeFor, rfl⟩ := mem_pending_run_iff.1 hf
      obtain rfl : n = next' := hid
      obtain rfl := hb.eq_of_materializes settles' madeFor ⟨joined', keeps⟩
      rw [collects.overridden_fakeFor hb] at listed
      obtain ⟨member, hm, rfl⟩ := List.mem_map.1 listed
      exact same_of_mem hm (collects.mem_members_of_mem_ids settles (settles'.mem_inherited hm) hx)
    · rintro rfl
      have listed := Bucket.mem_ids settles'.first_mem
      exact ⟨_, settles'.fakeFor_mem_pending ⟨joined', keeps⟩, rfl, _,
        (collects.overridden_fakeFor settles').symm ▸ listed, listed⟩
  · obtain ⟨single, unmodified, kept⟩ := keeps_iff.1 keeps
    have alone : originOf bucket' (input.specificOf bucket') = .inherited :=
      originOf_eq_inherited_iff.2 ⟨single, unmodified⟩
    rw [if_pos ⟨alone, kept⟩, representative_of_keeps keeps]
    constructor
    · intro hid
      have first := settles'.first_mem
      exact same_of_mem
        first (collects.mem_members_of_mem_ids settles (settles'.mem_inherited first) hid)
    · rintro rfl
      exact Bucket.mem_ids settles'.first_mem

/-- The effective members that come from a bucket are those that settling it adds. -/
theorem membersFrom_perm : List.Perm ((input.outcome inherited).membersFrom input.options bucket)
    ((input.additions next (.settle name bucket)).members.map Prod.snd) := by
  classical
  refine (members_run.filter _).trans (List.Perm.of_eq ?_)
  rw [List.filter_append, List.filter_eq_nil_iff.2 (by simp [OverrideSynthesis.ComesFrom]),
    List.nil_append, List.filter_flatMap]
  refine (flatMap_eq_of_pairwise pairwise_settled settles fun stamp hs apart => ?_).trans ?_
  · obtain ⟨next', _ | ⟨name', bucket'⟩⟩ := stamp
    · simp [members_check]
    · by_cases joined : bucket'.Joined input.lookup
      · have other : bucket' ≠ bucket := by
          rintro rfl
          rcases apart with apart | apart <;> exact apart _ settles.first_mem settles.first_mem
        simpa [members_settle_of_joined joined] using
          (collects.comesFrom_representative_iff settles hs joined).not.2 other
      · simp [members_settle_of_not_joined joined]
  · by_cases joined : bucket.Joined input.lookup
    · simpa [members_settle_of_joined joined] using
        (collects.comesFrom_representative_iff settles settles joined).2 rfl
    · simp [members_settle_of_not_joined joined]

end Collects

end SynthesisInput

/-! ## Verdicts -/

/-- What becomes of a bucket. If chains of members that meet connect it, one effective member comes
from it. Otherwise no effective member does, and its first member clashes with the first member of
each of its other components, in their order. -/
structure Bucket.Verdict (options : SynthesisOptions) (lookup : OverriddenLookup)
    (synthesis : OverrideSynthesis) (bucket : Bucket) : Prop where
  clashes : synthesis.clashesIn bucket = (bucket.heads lookup).map fun second =>
    ⟨bucket.first.declaration.name, bucket.first.id, second.id, .inheritedClash⟩
  reported : synthesis.clashesIn bucket ≠ [] ↔
    ¬∀ x ∈ bucket.ids, ∀ y ∈ bucket.ids, lookup.Chained (· ∈ bucket.ids) x y
  component : ∀ member ∈ bucket.members,
    ¬lookup.Chained (· ∈ bucket.ids) bucket.first.id member.id →
    ∃! head, head ∈ bucket.heads lookup ∧ lookup.Chained (· ∈ bucket.ids) head.id member.id
  disjoint : ∀ conflict ∈ synthesis.clashesIn bucket,
    ∀ x, lookup.Reaches conflict.first x → ¬lookup.Reaches conflict.second x
  split : synthesis.clashesIn bucket ≠ [] → synthesis.membersFrom options bucket = []
  joined : synthesis.clashesIn bucket = [] →
    ∃ member ∈ synthesis.set.group bucket.first.declaration.name,
      synthesis.membersFrom options bucket = [member]

/-- What becomes of a bucket that a run settles. -/
theorem SynthesisInput.Collects.verdict {input : SynthesisInput} {declared : List DeclId}
    {supertypes : List SupertypeMembers} {inherited : List Inherited} {next : DeclId}
    {name : String} {bucket : Bucket} (collects : input.Collects declared supertypes inherited)
    (settles : input.Settles inherited next name bucket) :
    bucket.Verdict input.options input.lookup (input.outcome inherited) := by
  obtain rfl := (settles.mem_iff.1 settles.first_mem).2.1
  have nodup := collects.nodup_ids settles
  have clashes := collects.clashesIn_eq settles
  have members := collects.membersFrom_perm settles
  have none_iff : (input.outcome inherited).clashesIn bucket = [] ↔ bucket.Joined input.lookup := by
    rw [clashes, List.map_eq_nil_iff, ← Bucket.joined_iff_heads nodup]
  refine ⟨clashes, ?_, fun member hm apart => Bucket.existsUnique_head hm apart, ?_, ?_, ?_⟩
  · rw [Ne, ← Bucket.joined_iff_connected]
    exact none_iff.not
  · intro conflict hc x hx hx'
    rw [clashes] at hc
    obtain ⟨head, hh, rfl⟩ := List.mem_map.1 hc
    exact Bucket.not_meet_of_mem_heads nodup hh ⟨x, hx, hx'⟩
  · intro some
    rw [members_settle_of_not_joined (none_iff.not.1 some)] at members
    exact List.perm_nil.1 members
  · intro none
    have joined := none_iff.1 none
    rw [members_settle_of_joined joined] at members
    exact ⟨_, representative_mem_group settles joined, List.perm_singleton.1 members⟩

/-- What becomes of the inherited members of one shape that no declared member has. -/
theorem verdict_of_shape {store store' : Store} {options : SynthesisOptions}
    {lookup : OverriddenLookup} {owner : DeclId} {declared : List DeclId}
    {supertypes : List SupertypeMembers} {synthesis : OverrideSynthesis}
    {inherited : List Inherited} {bucket : Bucket}
    (keyed : ∀ id declaration, store.get? id = some declaration → declaration.id = id)
    (ok : synthesizeWith options lookup owner declared supertypes store = .ok synthesis store')
    (offered : inheritedMembers store supertypes = .ok inherited)
    (shape : bucket.members = inherited.filter fun member =>
      bucket.first.signature.SameShape member.signature)
    (unbound : ∀ id ∈ declared, ∀ signature, store.signature? id = some signature →
      ¬signature.SameShape bucket.first.signature) :
    bucket.Verdict options lookup synthesis := by
  obtain ⟨declarations, found, collects, rfl, -⟩ :=
    (synthesizeWith_eq_ok_iff_of_keyed fun {id declaration} => keyed id declaration).1 ok
  obtain rfl := Except.ok.inj (offered.symm.trans collects.offered)
  have first : bucket.first ∈ inherited := by
    have listed : bucket.first ∈ bucket.members := List.mem_cons_self
    rw [shape] at listed
    exact (List.mem_filter.1 listed).1
  obtain ⟨next, settles⟩ := collects.exists_settles_of_shape shape fun binds => by
    obtain ⟨id, signature, hd, signed, same⟩ := (collects.binds_iff first).1 binds
    exact unbound id hd signature signed same
  exact collects.verdict settles

/-- Five functions without parameters. The first and the third have nothing in common but what the
fourth one overrides, and the second and the fifth override each other. -/
def woven : List Declaration :=
  let function (id : DeclId) (overridden : List DeclId) : Declaration :=
    { id, name := "f", container := none,
      kind := .function { returnType := .nullableAny, overridden } }
  [function ⟨1⟩ [⟨6⟩], function ⟨2⟩ [⟨5⟩], function ⟨3⟩ [⟨7⟩], function ⟨4⟩ [⟨6⟩, ⟨7⟩],
    function ⟨5⟩ [⟨2⟩]]

/-- The first function clashes with the second one alone. -/
theorem verdict_of_woven :
    let store := Store.empty.receive ⟨9⟩ woven
    let supertypes : List SupertypeMembers :=
      woven.map fun function => ⟨.nullableAny, ⟨8⟩, [function.id]⟩
    ∃ synthesis store', ∃ bucket : Bucket,
      synthesizeWith {} store.overriddenLookup ⟨8⟩ [] supertypes store = .ok synthesis store' ∧
      bucket.ids = [⟨1⟩, ⟨2⟩, ⟨3⟩, ⟨4⟩, ⟨5⟩] ∧
      synthesis.conflicts = [⟨"f", ⟨1⟩, ⟨2⟩, .inheritedClash⟩] ∧
      bucket.Verdict {} store.overriddenLookup synthesis := by
  intro store supertypes
  have keyed : ∀ id declaration, store.get? id = some declaration → declaration.id = id :=
    fun _ _ stored => (Store.mem_of_get?_receive_empty stored).2
  have computed : (match synthesizeWith {} store.overriddenLookup ⟨8⟩ [] supertypes store with
      | .ok synthesis _ => decide (synthesis.conflicts = [⟨"f", ⟨1⟩, ⟨2⟩, .inheritedClash⟩])
      | .error _ _ => false) = true := by decide +kernel
  have listed : ((inheritedMembers store supertypes).toOption.any fun inherited =>
      decide (inherited.map (·.id) = [⟨1⟩, ⟨2⟩, ⟨3⟩, ⟨4⟩, ⟨5⟩]) &&
        inherited.all fun member => inherited.all fun other =>
          decide (member.signature.SameShape other.signature)) = true := by decide +kernel
  cases ok : synthesizeWith {} store.overriddenLookup ⟨8⟩ [] supertypes store with
  | error e store' => simp [ok] at computed
  | ok synthesis store' =>
    rw [ok] at computed
    cases offered : inheritedMembers store supertypes with
    | error e =>
      rw [offered] at listed
      cases listed
    | ok inherited =>
      rw [offered] at listed
      obtain ⟨ids, alike⟩ := Bool.and_eq_true_iff.1 listed
      cases inherited with
      | nil => cases of_decide_eq_true ids
      | cons first others =>
        have shape := List.all_eq_true.1 (List.all_eq_true.1 alike first List.mem_cons_self)
        refine ⟨synthesis, store', ⟨first, others⟩, rfl, of_decide_eq_true ids,
          of_decide_eq_true computed, ?_⟩
        exact verdict_of_shape keyed ok offered (List.filter_eq_self.2 shape).symm (by simp)

end ClassSymbols
