import ClassSymbols.Proofs.Overrides.Reading

/-!
# Members that stand for inherited members

An inherited member is overridden by declared members and by the fake override of its bucket, or it
is effective itself. No two buckets have a fake override in common, since no id is given out twice.

## Main definitions

* `OverrideSet.standIns` — the members that stand for an inherited one.

## Main statements

* `SynthesisInput.representative_of_keeps`, `SynthesisInput.id_representative_of_not_keeps` — what
  stands for a bucket.
* `SynthesisInput.Reads.overriddenBy_iff` — the members that override an inherited one.
* `SynthesisInput.Reads.standIns_of_joined` — one member stands for the members of a joined bucket.
* `SynthesisInput.Reads.conflict_cases` — the conflicts that name an inherited member.
* `SynthesisInput.Reads.omits_of_not_inherited` — members that are not inherited are not mentioned.
-/

namespace ClassSymbols

namespace SynthesisInput

variable {input : SynthesisInput}

theorem specificOf_of_others_eq_nil {bucket : Bucket} (single : bucket.others = []) :
    input.specificOf bucket = bucket.first := by
  have := input.specificOf_mem bucket
  rw [Bucket.members, single] at this
  exact List.mem_singleton.1 this

theorem originOf_eq_inherited_iff {bucket : Bucket} :
    originOf bucket (input.specificOf bucket) = .inherited ↔
    bucket.others = [] ∧ bucket.first.unmodified = true := by
  unfold originOf
  by_cases single : bucket.others = []
  · rw [specificOf_of_others_eq_nil single]
    cases bucket.first.unmodified <;> simp [single]
  · simp [single]

theorem keeps_iff {bucket : Bucket} : input.keeps bucket = true ↔
    bucket.others = [] ∧ bucket.first.unmodified = true ∧ input.options.materialize = false := by
  simp [keeps, originOf_eq_inherited_iff, and_assoc]

theorem members_of_keeps {bucket : Bucket} (keeps : input.keeps bucket = true) :
    bucket.members = [bucket.first] :=
  congrArg (bucket.first :: ·) (keeps_iff.1 keeps).1

theorem specificOf_of_keeps {bucket : Bucket} (keeps : input.keeps bucket = true) :
    input.specificOf bucket = bucket.first := specificOf_of_others_eq_nil (keeps_iff.1 keeps).1

/-- A member that may represent itself stands for its bucket as it is. -/
theorem representative_of_keeps {next : DeclId} {bucket : Bucket}
    (keeps : input.keeps bucket = true) :
    input.representative next bucket = ⟨bucket.first.id, .inherited⟩ := by
  obtain ⟨single, unmodified, -⟩ := keeps_iff.1 keeps
  simp [representative, keeps, specificOf_of_keeps keeps, originOf, single, unmodified]

/-- A fake override that stands for a bucket has the next id. -/
theorem id_representative_of_not_keeps {next : DeclId} {bucket : Bucket}
    (keeps : input.keeps bucket = false) :
    (input.representative next bucket).id = next := by
  simp [representative, keeps]

theorem originOf_ne_declared (bucket : Bucket) (specific : Inherited) :
    originOf bucket specific ≠ .declared := by
  unfold originOf
  split <;> decide

end SynthesisInput

/-- The members that are not declared and stand for an inherited member: they override it, or are
it. -/
def OverrideSet.standIns (set : OverrideSet) (id : DeclId) : List EffectiveMember :=
  set.members.filter fun member =>
    member.origin ≠ .declared ∧ (member.id = id ∨ id ∈ set.overriddenBy member.id)

namespace SynthesisInput.Reads

variable {input : SynthesisInput} {declared : List DeclId} {supertypes : List SupertypeMembers}
  {inherited : List Inherited} (reads : input.Reads declared supertypes inherited)
  {member : Inherited} (hm : member ∈ inherited)
include reads hm

/-- An inherited member is overridden by the declared members that validly do so, and by the fake
override of its bucket. -/
theorem overriddenBy_iff {x : DeclId} :
    member.id ∈ (input.run inherited).set.overriddenBy x ↔
      (∃ signature, input.store.DeclaredLike declared member x signature ∧
        signature.check member.signature input.options.relation input.store = .overridable) ∨
      ∃ name bucket, input.Settles inherited x name bucket ∧ input.Materializes bucket ∧
        member ∈ bucket.members := by
  rw [mem_overriddenBy_run_iff]
  refine or_congr ⟨?_, ?_⟩ ⟨?_, ?_⟩
  · rintro ⟨other, ho, ⟨id, signature⟩, hd, checked, rfl, same⟩
    obtain rfl := reads.eq_of_id_eq hm ho same
    have shape := check_ne_unrelated_iff.1 (by rw [checked]; decide)
    exact ⟨signature, (reads.declaredLike_iff hm).2 ⟨hd, shape⟩, checked⟩
  · rintro ⟨signature, like, checked⟩
    exact ⟨member, hm, ⟨x, signature⟩, ((reads.declaredLike_iff hm).1 like).1, checked, rfl, rfl⟩
  · rintro ⟨name, bucket, settles, made, hy⟩
    obtain ⟨other, ho, same⟩ := List.mem_map.1 hy
    obtain rfl := reads.eq_of_id_eq (settles.mem_inherited ho) hm same
    exact ⟨name, bucket, settles, made, ho⟩
  · rintro ⟨name, bucket, settles, made, hb⟩
    exact ⟨name, bucket, settles, made, List.mem_map_of_mem hb⟩

variable (apart : ∀ id ∈ declared, ∀ supertype ∈ supertypes, id ∉ supertype.members)
include apart

theorem not_declared : member.id ∉ declared := by
  obtain ⟨supertype, hs, listed⟩ := reads.listed hm
  exact fun hd => apart _ hd supertype hs listed

/-- The member that stands for a joined bucket stands for the members of that bucket only. -/
theorem representative_standsFor_iff {next : DeclId} {name : String} {bucket : Bucket}
    (settles : input.Settles inherited next name bucket) (joined : bucket.Joined input.lookup) :
    ((input.representative next bucket).id = member.id ∨
      member.id ∈ (input.run inherited).set.overriddenBy (input.representative next bucket).id) ↔
      member ∈ bucket.members := by
  rw [reads.overriddenBy_iff hm]
  have stored (m : Inherited) (h : m ∈ inherited) : input.store.get? m.id ≠ none := by
    simp [reads.get?_eq h]
  cases keeps : input.keeps bucket
  · -- The fake override has the next id, which no stored member has.
    rw [id_representative_of_not_keeps keeps]
    constructor
    · rintro (rfl | ⟨_, like, -⟩ | ⟨_, other, settles', made, hb⟩)
      · exact absurd (reads.get?_of_settles settles) (stored member hm)
      · have fresh := reads.get?_of_settles settles
        have known := like.2.1
        simp [Store.signature?, fresh] at known
      · obtain rfl := settles'.eq_of_materializes settles made ⟨joined, keeps⟩
        exact hb
    · intro hb
      exact .inr (.inr ⟨name, bucket, settles, ⟨joined, keeps⟩, hb⟩)
  · -- The only member of the bucket stands for itself.
    have first := settles.mem_inherited settles.first_mem
    rw [representative_of_keeps keeps, members_of_keeps keeps, List.mem_singleton]
    constructor
    · rintro (same | ⟨_, like, -⟩ | ⟨_, _, settles', -, -⟩)
      · exact (reads.eq_of_id_eq first hm same).symm
      · exact absurd like.1 (reads.not_declared first apart)
      · exact absurd (reads.get?_of_settles settles') (stored _ first)
    · rintro rfl
      exact .inl rfl

theorem standIns_additions {stamp : DeclId × SynthesisEvent}
    (hs : stamp ∈ input.stamped input.store.next (input.events inherited))
    (other : member ∉ stamp.2.settled) :
    ((input.additions stamp.1 stamp.2).members.map Prod.snd).filter (fun e =>
      e.origin ≠ .declared ∧
        (e.id = member.id ∨ member.id ∈ (input.run inherited).set.overriddenBy e.id)) = [] := by
  obtain ⟨next, _ | ⟨name, bucket⟩⟩ := stamp
  · rw [members_check]
    rfl
  · by_cases joined : bucket.Joined input.lookup
    · rw [members_settle_of_joined joined]
      have none := (reads.representative_standsFor_iff hm apart hs joined).not.2 other
      simp [none]
    · rw [members_settle_of_not_joined joined]
      rfl

/-- One member stands for the members of a joined bucket. -/
theorem standIns_of_joined {next : DeclId} {name : String} {bucket : Bucket}
    (settles : input.Settles inherited next name bucket) (joined : bucket.Joined input.lookup)
    (hb : member ∈ bucket.members) :
    (input.run inherited).set.standIns member.id = [input.representative next bucket] := by
  refine List.perm_singleton.1 ((members_run.filter _).trans (List.Perm.of_eq ?_))
  rw [List.filter_append, List.filter_eq_nil_iff.2 (by simp), List.nil_append, List.filter_flatMap]
  refine (flatMap_eq_of_pairwise pairwise_settled settles fun stamp hs others => ?_).trans ?_
  · refine reads.standIns_additions hm apart hs fun h => ?_
    rcases others with others | others
    · exact others member hb h
    · exact others member h hb
  · have stands := (reads.representative_standsFor_iff hm apart settles joined).2 hb
    simpa [members_settle_of_joined joined, representative, originOf_ne_declared] using stands

/-- No member stands for an inherited member that is not in a joined bucket. -/
theorem standIns_of_free (free : ∀ next name bucket, input.Settles inherited next name bucket →
    bucket.Joined input.lookup → member ∉ bucket.members) :
    (input.run inherited).set.standIns member.id = [] := by
  refine List.filter_eq_nil_iff.2 fun e he => ?_
  rcases mem_members_run_iff.1 he with ⟨declaration, -, rfl⟩ |
    ⟨next, name, bucket, settles, joined, rfl⟩
  · simp
  · have none := (reads.representative_standsFor_iff hm apart settles joined).not.2
      (free next name bucket settles joined)
    simp [none]

/-- A conflict that names an inherited member is a failed check of it, or a clash in its bucket. -/
theorem conflict_cases {conflict : Conflict} (hc : conflict ∈ (input.run inherited).conflicts)
    (names : conflict.first = member.id ∨ conflict.second = member.id) :
    (∃ id signature reason, input.store.DeclaredLike declared member id signature ∧
      signature.check member.signature input.options.relation input.store = .conflict reason ∧
      conflict = ⟨member.declaration.name, id, member.id, .incompatibleOverride reason⟩) ∨
    ∃ next name bucket, input.Settles inherited next name bucket ∧ member ∈ bucket.members ∧
      ¬bucket.Joined input.lookup := by
  rcases mem_conflicts_run_iff.1 hc with
    ⟨other, ho, ⟨id, signature⟩, hd, reason, checked, rfl⟩ | ⟨next, name, bucket, settles, i, head,
      hi, hh, rfl⟩
  · rcases names with same | same
    · have declared' := (reads.mem_declaredNamed_iff.1 hd).1
      exact absurd (same ▸ declared') (reads.not_declared hm apart)
    · obtain rfl := reads.eq_of_id_eq ho hm same
      have shape := check_ne_unrelated_iff.1 (by rw [checked]; simp)
      exact .inl ⟨id, signature, reason, (reads.declaredLike_iff ho).2 ⟨hd, shape⟩, checked, rfl⟩
  · refine .inr ⟨next, name, bucket, settles, ?_, fun joined => Bucket.joined_iff.1 joined i hi⟩
    rcases names with same | same
    · have first := settles.first_mem
      exact reads.eq_of_id_eq (settles.mem_inherited first) hm same ▸ first
    · have head' := List.mem_of_getElem? hh
      exact reads.eq_of_id_eq (settles.mem_inherited head') hm same ▸ head'

/-- An inherited member is effective if it may represent itself. -/
theorem mem_memberIds_iff : member.id ∈ (input.run inherited).set.memberIds ↔
    ∃ next name bucket, input.Settles inherited next name bucket ∧ bucket.Joined input.lookup ∧
      input.keeps bucket = true ∧ member ∈ bucket.members := by
  simp only [OverrideSet.memberIds, List.mem_map, mem_members_run_iff]
  constructor
  · rintro ⟨_, ⟨declaration, hd, rfl⟩ | ⟨next, name, bucket, settles, joined, rfl⟩, same⟩
    · exact absurd (same ▸ (reads.mem_declared_iff.1 hd).1) (reads.not_declared hm apart)
    · have stands := (reads.representative_standsFor_iff hm apart settles joined).1 (.inl same)
      refine ⟨next, name, bucket, settles, joined, ?_, stands⟩
      by_contra made
      have fresh := reads.get?_of_settles settles
      rw [id_representative_of_not_keeps (Bool.eq_false_iff.2 made)] at same
      have known := reads.get?_eq hm
      simp [← same, fresh] at known
  · rintro ⟨next, name, bucket, settles, joined, keeps, hb⟩
    refine ⟨_, .inr ⟨next, name, bucket, settles, joined, rfl⟩, ?_⟩
    rw [members_of_keeps keeps, List.mem_singleton] at hb
    rw [representative_of_keeps keeps, hb]

end SynthesisInput.Reads

namespace SynthesisInput.Reads

variable {input : SynthesisInput} {declared : List DeclId} {supertypes : List SupertypeMembers}
  {inherited : List Inherited} (reads : input.Reads declared supertypes inherited)
include reads

/-! ## Omitted members -/

/-- A synthesis mentions a listed member only if the class inherits it. -/
theorem omits_of_not_inherited
    (apart : ∀ id ∈ declared, ∀ supertype ∈ supertypes, id ∉ supertype.members) {id : DeclId}
    (listed : ∃ supertype ∈ supertypes, id ∈ supertype.members)
    (foreign : input.store.inheritedAs? supertypes id = none) :
    (∀ x, id ∉ (input.run inherited).set.overriddenBy x) ∧
      id ∉ (input.run inherited).set.memberIds ∧
      ∀ conflict ∈ (input.run inherited).conflicts, conflict.first ≠ id ∧ conflict.second ≠ id := by
  have ne (m : Inherited) (hm : m ∈ inherited) : m.id ≠ id := by
    rintro rfl
    simp [reads.mem_inherited_iff.1 hm] at foreign
  have undeclared : id ∉ declared := by
    obtain ⟨supertype, hs, hid⟩ := listed
    exact fun hd => apart id hd supertype hs hid
  refine ⟨fun x hx => ?_, fun hid => ?_, fun conflict hc => ?_⟩
  · rcases mem_overriddenBy_run_iff.1 hx with ⟨m, hm, _, _, _, _, e⟩ | ⟨_, bucket, settles, _, hy⟩
    · exact ne m hm e.symm
    · obtain ⟨m, hm, e⟩ := List.mem_map.1 hy
      exact ne m (settles.mem_inherited hm) e
  · obtain ⟨e, he, rfl⟩ := List.mem_map.1 hid
    rcases mem_members_run_iff.1 he with ⟨d, hd, rfl⟩ | ⟨next, name, bucket, settles, joined, rfl⟩
    · exact undeclared (reads.mem_declared_iff.1 hd).1
    · obtain ⟨stored, known⟩ := exists_get?_of_listed reads.offered listed
      cases keeps : input.keeps bucket
      · rw [id_representative_of_not_keeps keeps, reads.get?_of_settles settles] at known
        cases known
      · rw [representative_of_keeps keeps] at ne
        exact ne _ (settles.mem_inherited settles.first_mem) rfl
  · rcases mem_conflicts_run_iff.1 hc with
      ⟨m, hm, d, hd, _, _, rfl⟩ | ⟨next, name, bucket, settles, i, head, _, hh, rfl⟩
    · exact ⟨fun e => undeclared (e ▸ (reads.mem_declaredNamed_iff.1 hd).1), ne m hm⟩
    · exact ⟨ne _ (settles.mem_inherited settles.first_mem),
        ne _ (settles.mem_inherited (List.mem_of_getElem? hh))⟩

/-! ## Runs without conflicts -/

section Clean

variable (clean : (input.run inherited).conflicts = [])
include clean

omit reads in
/-- Without conflicts, all buckets are joined. -/
theorem joined_of_clean {next : DeclId} {name : String} {bucket : Bucket}
    (settles : input.Settles inherited next name bucket) : bucket.Joined input.lookup := by
  refine Bucket.joined_iff.2 fun i heads => ?_
  obtain ⟨head, hh⟩ := heads.getElem?
  have clash :=
    mem_conflicts_run_iff.2 (.inr ⟨next, name, bucket, settles, i, head, heads, hh, rfl⟩)
  simp [clean] at clash

omit reads in
/-- Without conflicts, declared members validly override what has their shape. -/
theorem check_of_clean {member : Inherited} (hm : member ∈ inherited) {declared : DeclaredMember}
    (hd : declared ∈ input.declaredNamed member.declaration.name)
    (shape : declared.signature.SameShape member.signature) :
    input.check declared member = .overridable := by
  cases checked : input.check declared member with
  | overridable => rfl
  | unrelated => exact absurd checked (check_ne_unrelated_iff.2 shape)
  | conflict reason =>
    have found := mem_conflicts_run_iff.2 (.inl ⟨member, hm, declared, hd, reason, checked, rfl⟩)
    simp [clean] at found

/-- Without conflicts, a declared member overrides an inherited one, or a fake override does, or the
inherited member is effective. -/
theorem standIn_cases {member : Inherited} (hm : member ∈ inherited) :
    (∃ d ∈ declared, (input.store.signature? d).isSome ∧
        member.id ∈ (input.run inherited).set.overriddenBy d) ∨
      (∃ fake ∈ (input.run inherited).pending, fake.id ∈ (input.run inherited).set.memberIds ∧
        member.id ∈ (input.run inherited).set.overriddenBy fake.id) ∨
      member.id ∈ (input.run inherited).set.memberIds := by
  by_cases binds : input.Binds member
  · obtain ⟨d, hd, shape⟩ := binds
    have checked := check_of_clean clean hm hd shape
    obtain ⟨listed, signed, -⟩ := reads.mem_declaredNamed_iff.1 hd
    exact .inl ⟨d.id, listed, Option.isSome_of_mem signed,
      mem_overriddenBy_run_iff.2 (.inl ⟨member, hm, d, hd, checked, rfl, rfl⟩)⟩
  · obtain ⟨next, bucket, settles, hb⟩ := exists_settles hm binds
    have joined := joined_of_clean clean settles
    have effective : (input.representative next bucket).id ∈ (input.run inherited).set.memberIds :=
      List.mem_map_of_mem (mem_members_run_iff.2 (.inr ⟨next, _, bucket, settles, joined, rfl⟩))
    cases keeps : input.keeps bucket
    · have overrides := mem_overriddenBy_run_iff.2
        (.inr ⟨_, bucket, settles, ⟨joined, keeps⟩, List.mem_map_of_mem hb⟩)
      rw [id_representative_of_not_keeps keeps] at effective
      exact .inr (.inl ⟨_, settles.fakeFor_mem_pending ⟨joined, keeps⟩, effective, overrides⟩)
    · rw [members_of_keeps keeps, List.mem_singleton] at hb
      rw [representative_of_keeps keeps] at effective
      exact .inr (.inr (hb ▸ effective))

end Clean

end SynthesisInput.Reads

end ClassSymbols
