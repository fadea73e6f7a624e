import ClassSymbols.Proofs.Overrides.Clusters
import ClassSymbols.Proofs.Overrides.Events

/-!
# The outcome of a synthesis

What a run finds is what its events add. A check adds a pair or a conflict; a joined bucket adds the
member that stands for it, and any other bucket its clashes. Each inherited member is checked
against all declared members of its name, and settled in one bucket unless one of them has its
shape.

## Main definitions

* `SynthesisInput.Materializes` — whether a fake override stands for a bucket.
* `SynthesisInput.representative` — the member that stands for a joined bucket.
* `SynthesisInput.Settles` — a bucket that a run settles, with the next id at that point.
* `SynthesisInput.standInsNamed` — the members of a name that stand for joined buckets.

## Main statements

* `SynthesisInput.mem_overriddenBy_run_iff`, `SynthesisInput.mem_conflicts_run_iff`,
  `SynthesisInput.mem_pending_run_iff`, `SynthesisInput.members_run`, `SynthesisInput.group_run` —
  what a run finds.
* `SynthesisInput.exists_settles`, `SynthesisInput.Settles.eq` — an inherited member is settled
  once.
-/

namespace ClassSymbols

/-- The most specific member is the first one that is found, or else the first one of the bucket. -/
theorem Bucket.mostSpecific_eq (bucket : Bucket) (closures : List (List DeclId)) :
    bucket.mostSpecific closures = ((bucket.members.zipIdx.find? fun pair =>
      inNoOtherClosure closures pair.2 pair.1.id).map Prod.fst).getD bucket.first := by
  unfold mostSpecific
  split
  · next found => exact (congrArg (fun pair => (pair.map Prod.fst).getD bucket.first) found).symm
  · next found => exact (congrArg (fun pair => (pair.map Prod.fst).getD bucket.first) found).symm

namespace SynthesisInput

variable (input : SynthesisInput)

/-! ## Events -/

def Materializes (bucket : Bucket) : Prop :=
  bucket.Joined input.lookup ∧ input.keeps bucket = false

/-- The member that stands for a joined bucket: a member that may represent itself, or the fake
override that is given the next id. -/
def representative (next : DeclId) (bucket : Bucket) : EffectiveMember where
  id := if input.keeps bucket then (input.specificOf bucket).id else next
  origin := originOf bucket (input.specificOf bucket)

theorem closuresOf_eq (bucket : Bucket) :
    input.closuresOf bucket = bucket.ids.map input.lookup.closure := bucket.closures_eq input.lookup

theorem specificOf_mem (bucket : Bucket) : input.specificOf bucket ∈ bucket.members := by
  rw [specificOf, Bucket.mostSpecific_eq]
  cases found : bucket.members.zipIdx.find? fun pair =>
    inNoOtherClosure (input.closuresOf bucket) pair.2 pair.1.id with
  | none => exact List.mem_cons_self
  | some pair =>
    exact List.mem_of_getElem? (List.mem_zipIdx_iff_getElem?.1 (List.mem_of_find?_eq_some found))

theorem additions_settle_of_joined {bucket : Bucket} (joined : bucket.Joined input.lookup)
    (next : DeclId) (name : String) :
    input.additions next (.settle name bucket) = input.standIn name next bucket := by
  obtain ⟨first, one⟩ := Bucket.joined_iff_clusters.1 joined
  simp [additions, closuresOf_eq, one]

theorem additions_settle_of_not_joined {bucket : Bucket} (split : ¬bucket.Joined input.lookup)
    (next : DeclId) (name : String) : ∃ first others,
      clusters (bucket.ids.map input.lookup.closure) = first :: others ∧
      input.additions next (.settle name bucket) = { conflicts := clashes name bucket others } := by
  rw [Bucket.joined_iff_clusters] at split
  obtain ⟨first, eq⟩ := bucket.clusters_eq_cons input.lookup
  match found : clusters (bucket.ids.map input.lookup.closure) with
  | [] => simp [found] at eq
  | [only] => exact absurd ⟨only, found⟩ split
  | first :: other :: others =>
    exact ⟨first, other :: others, rfl, by simp [additions, closuresOf_eq, found]⟩

variable {input} {next : DeclId} {name : String} {bucket : Bucket} {member : Inherited}
  {declared : DeclaredMember} {conflict : Conflict} {x y : DeclId}

theorem mem_overridden_check_iff :
    (x, y) ∈ (input.additions next (.check name member declared)).overridden ↔
      input.check declared member = .overridable ∧ x = declared.id ∧ y = member.id := by
  cases checked : input.check declared member <;> simp [additions, checked]

theorem mem_overridden_settle_iff :
    (x, y) ∈ (input.additions next (.settle name bucket)).overridden ↔
      input.Materializes bucket ∧ x = next ∧ y ∈ bucket.ids := by
  unfold Materializes
  by_cases joined : bucket.Joined input.lookup
  · rw [input.additions_settle_of_joined joined]
    cases keeps : input.keeps bucket
    · simp [standIn, keeps, joined, Bucket.ids, eq_comm, and_left_comm]
    · simp [standIn, keeps]
  · obtain ⟨_, _, -, eq⟩ := input.additions_settle_of_not_joined joined next name
    simp [eq, joined]

theorem mem_conflicts_check_iff :
    conflict ∈ (input.additions next (.check name member declared)).conflicts ↔
      ∃ reason, input.check declared member = .conflict reason ∧
        conflict = ⟨name, declared.id, member.id, .incompatibleOverride reason⟩ := by
  cases checked : input.check declared member <;> simp [additions, checked]

theorem mem_conflicts_settle_iff :
    conflict ∈ (input.additions next (.settle name bucket)).conflicts ↔
      ∃ i head, bucket.Heads input.lookup i ∧ bucket.members[i]? = some head ∧
        conflict = ⟨name, bucket.first.id, head.id, .inheritedClash⟩ := by
  by_cases joined : bucket.Joined input.lookup
  · rw [input.additions_settle_of_joined joined]
    have none := Bucket.joined_iff.1 joined
    cases keeps : input.keeps bucket <;> simp [standIn, keeps, none]
  · obtain ⟨first, others, found, eq⟩ := input.additions_settle_of_not_joined joined next name
    rw [eq]
    exact Bucket.mem_clashes_iff found

theorem members_check :
    (input.additions next (.check name member declared)).members = [] := by
  cases checked : input.check declared member <;> simp [additions, checked]

theorem members_settle_of_joined (joined : bucket.Joined input.lookup) :
    (input.additions next (.settle name bucket)).members =
      [(name, input.representative next bucket)] := by
  rw [input.additions_settle_of_joined joined]
  cases keeps : input.keeps bucket <;> simp [standIn, keeps, representative]

theorem members_settle_of_not_joined (split : ¬bucket.Joined input.lookup) :
    (input.additions next (.settle name bucket)).members = [] := by
  obtain ⟨_, _, -, eq⟩ := input.additions_settle_of_not_joined split next name
  simp [eq]

theorem pending_check :
    (input.additions next (.check name member declared)).pending = [] := by
  cases checked : input.check declared member <;> simp [additions, checked]

theorem pending_settle_of_materializes (h : input.Materializes bucket) :
    (input.additions next (.settle name bucket)).pending = [input.fakeFor next bucket] := by
  rw [input.additions_settle_of_joined h.1]
  simp [standIn, h.2]

theorem pending_settle_of_not_materializes (h : ¬input.Materializes bucket) :
    (input.additions next (.settle name bucket)).pending = [] := by
  by_cases joined : bucket.Joined input.lookup
  · rw [input.additions_settle_of_joined joined]
    cases keeps : input.keeps bucket
    · exact absurd ⟨joined, keeps⟩ h
    · simp [standIn, keeps]
  · obtain ⟨_, _, -, eq⟩ := input.additions_settle_of_not_joined joined next name
    simp [eq]

end SynthesisInput

/-! ## Events of a run -/

def SynthesisEvent.settled : SynthesisEvent → List Inherited
  | .check _ _ _ => []
  | .settle _ bucket => bucket.members

theorem Signature.name_eq {declaration : Declaration} {substitution : Substitution}
    {signature : Signature} (h : Signature.of? declaration substitution = some signature) :
    signature.name = declaration.name := by
  unfold Signature.of? at h
  split at h <;> cases h <;> rfl

namespace SynthesisInput

variable {input : SynthesisInput} {inherited : List Inherited}

theorem check_mem_events_iff {name : String} {member : Inherited} {declared : DeclaredMember} :
    .check name member declared ∈ input.events inherited ↔
      member ∈ inherited ∧ name = member.declaration.name ∧
      declared ∈ input.declaredNamed name := by
  simp only [events, groupEvents, List.mem_flatMap, List.mem_append, List.mem_map]
  constructor
  · rintro ⟨⟨group, members⟩, hg, ⟨m, hm, d, hd, e⟩ | ⟨_, _, e⟩⟩
    · obtain ⟨rfl, rfl, rfl⟩ := SynthesisEvent.check.inj e
      obtain ⟨-, rfl⟩ := mem_groupByName_iff.1 hg
      obtain ⟨hm, e⟩ := List.mem_filter.1 hm
      exact ⟨hm, (of_decide_eq_true e).symm, hd⟩
    · cases e
  · rintro ⟨hm, rfl, hd⟩
    have listed : member ∈ inherited.filter (·.declaration.name = member.declaration.name) :=
      List.mem_filter.2 ⟨hm, by simp⟩
    exact ⟨(_, _), mem_groupByName_iff.2 ⟨List.ne_nil_of_mem listed, rfl⟩,
      .inl ⟨member, listed, declared, hd, rfl⟩⟩

theorem settle_mem_events_iff {name : String} {bucket : Bucket} :
    .settle name bucket ∈ input.events inherited ↔
      bucket ∈ bucketByShape ((inherited.filter (·.declaration.name = name)).filter fun member =>
        !input.isBound (input.declaredNamed name) member) := by
  simp only [events, groupEvents, List.mem_flatMap, List.mem_append, List.mem_map]
  constructor
  · rintro ⟨⟨group, members⟩, hg, ⟨_, _, _, _, e⟩ | ⟨b, hb, e⟩⟩
    · cases e
    · obtain ⟨rfl, rfl⟩ := SynthesisEvent.settle.inj e
      obtain ⟨-, rfl⟩ := mem_groupByName_iff.1 hg
      exact hb
  · intro hb
    refine ⟨(name, _), mem_groupByName_iff.2 ⟨fun empty => ?_, rfl⟩, .inr ⟨bucket, hb, rfl⟩⟩
    simp [empty, bucketByShape] at hb

theorem name_eq_of_mem_groupEvents {group : String × List Inherited}
    (h : group ∈ (groupByName inherited).entries) {event : SynthesisEvent} {member : Inherited}
    (he : event ∈ input.groupEvents group) (hm : member ∈ event.settled) :
    member.declaration.name = group.1 := by
  obtain ⟨name, members⟩ := group
  obtain ⟨-, rfl⟩ := mem_groupByName_iff.1 h
  rcases List.mem_append.1 he with hc | hs
  · obtain ⟨_, _, hc⟩ := List.mem_flatMap.1 hc
    obtain ⟨_, _, rfl⟩ := List.mem_map.1 hc
    cases hm
  · obtain ⟨bucket, hb, rfl⟩ := List.mem_map.1 hs
    have filled := (bucketed_bucketByShape _).members_eq bucket hb
    have listed : member ∈ bucket.members := hm
    rw [filled] at listed
    exact of_decide_eq_true (List.mem_filter.1 (List.mem_filter.1 (List.mem_filter.1 listed).1).1).2

/-- No member is settled by two events of a run. -/
theorem pairwise_events :
    (input.events inherited).Pairwise fun a b => ∀ member ∈ a.settled, member ∉ b.settled := by
  refine List.pairwise_flatMap.2 ⟨fun group _ => List.pairwise_append.2 ⟨?_, ?_, ?_⟩, ?_⟩
  · refine List.pairwise_of_forall_mem_list fun a ha _ _ member hm => ?_
    obtain ⟨_, _, ha⟩ := List.mem_flatMap.1 ha
    obtain ⟨_, _, rfl⟩ := List.mem_map.1 ha
    cases hm
  · have buckets := bucketed_bucketByShape (group.2.filter fun member =>
      !input.isBound (input.declaredNamed group.1) member)
    refine List.pairwise_map.2
      (buckets.pairwise.imp_of_mem fun {a b} ha hb differ member hma hmb => ?_)
    have shapeA : a.HasShape member := by
      have listed : member ∈ a.members := hma
      rw [buckets.members_eq a ha] at listed
      exact of_decide_eq_true (List.mem_filter.1 listed).2
    have shapeB : b.HasShape member := by
      have listed : member ∈ b.members := hmb
      rw [buckets.members_eq b hb] at listed
      exact of_decide_eq_true (List.mem_filter.1 listed).2
    exact differ (shapeA.trans shapeB.symm)
  · intro a ha b _ member hm
    obtain ⟨_, _, ha⟩ := List.mem_flatMap.1 ha
    obtain ⟨_, _, rfl⟩ := List.mem_map.1 ha
    cases hm
  · refine List.Pairwise.imp_of_mem (fun {a b} ha hb differ x hx y hy member hmx hmy => ?_)
      (List.pairwise_map.1 (groupByName inherited).nodup_keys)
    exact differ ((name_eq_of_mem_groupEvents ha hx hmx).symm.trans
      (name_eq_of_mem_groupEvents hb hy hmy))

/-! ## Settled buckets -/

def Settles (input : SynthesisInput) (inherited : List Inherited) (next : DeclId) (name : String)
    (bucket : Bucket) : Prop :=
  (next, .settle name bucket) ∈ input.stamped input.store.next (input.events inherited)

def Binds (input : SynthesisInput) (member : Inherited) : Prop :=
  ∃ declared ∈ input.declaredNamed member.declaration.name,
    declared.signature.SameShape member.signature

theorem check_ne_unrelated_iff {declared : DeclaredMember} {member : Inherited} :
    input.check declared member ≠ .unrelated ↔ declared.signature.SameShape member.signature := by
  unfold check Signature.check
  by_cases same : declared.signature.SameShape member.signature
  · rw [if_neg (not_not_intro same)]
    split
    · simp [same]
    · split <;> simp [same]
  · simp [same]

theorem isBound_iff {member : Inherited} :
    input.isBound (input.declaredNamed member.declaration.name) member = true ↔
      input.Binds member := by
  simp [isBound, Binds, check_ne_unrelated_iff]

theorem mem_stamped_iff {event : SynthesisEvent} : event ∈ input.events inherited ↔
    ∃ next, (next, event) ∈ input.stamped input.store.next (input.events inherited) := by
  conv_lhs => rw [← input.map_snd_stamped input.store.next (input.events inherited)]
  simp

section Settles

variable {next next' : DeclId} {name name' : String} {bucket bucket' : Bucket} {member : Inherited}

theorem Settles.le (h : input.Settles inherited next name bucket) :
    input.store.next.number ≤ next.number := input.le_of_mem_stamped h

theorem Settles.mem_iff (h : input.Settles inherited next name bucket) :
    member ∈ bucket.members ↔ member ∈ inherited ∧ member.declaration.name = name ∧
      ¬input.Binds member ∧ bucket.HasShape member := by
  have settled := settle_mem_events_iff.1 (mem_stamped_iff.2 ⟨_, h⟩)
  rw [(bucketed_bucketByShape _).members_eq bucket settled]
  simp only [List.mem_filter, decide_eq_true_eq, and_assoc]
  refine and_congr_right fun _ => and_congr_right fun named => ?_
  subst named
  rw [← isBound_iff]
  simp

/-- A bucket lists its members in the order in which the class inherits them. -/
theorem Settles.sublist (h : input.Settles inherited next name bucket) :
    bucket.members.Sublist inherited := by
  have settled := settle_mem_events_iff.1 (mem_stamped_iff.2 ⟨_, h⟩)
  rw [(bucketed_bucketByShape _).members_eq bucket settled]
  exact (List.filter_sublist.trans List.filter_sublist).trans List.filter_sublist

theorem Settles.first_mem (_ : input.Settles inherited next name bucket) :
    bucket.first ∈ bucket.members := List.mem_cons_self

/-- An inherited member that no declared member has the shape of is settled. -/
theorem exists_settles (hm : member ∈ inherited) (free : ¬input.Binds member) :
    ∃ next bucket, input.Settles inherited next member.declaration.name bucket ∧
      member ∈ bucket.members := by
  have listed : member ∈ (inherited.filter (·.declaration.name = member.declaration.name)).filter
      fun member' => !input.isBound (input.declaredNamed member.declaration.name) member' := by
    rw [← isBound_iff] at free
    simp [hm, free]
  obtain ⟨bucket, hb, shape⟩ := (bucketed_bucketByShape _).exists_bucket member listed
  obtain ⟨next, hs⟩ := mem_stamped_iff.1 (settle_mem_events_iff.2 hb)
  exact ⟨next, bucket, hs, (Settles.mem_iff hs).2 ⟨hm, rfl, free, shape⟩⟩

theorem eq_of_pairwise {α : Type} {R : α → α → Prop} {list : List α} (h : list.Pairwise R) {a b : α}
    (ha : a ∈ list) (hb : b ∈ list) (hab : ¬R a b) (hba : ¬R b a) : a = b := by
  induction h with
  | nil => cases ha
  | cons first _ ih =>
    rcases List.mem_cons.1 ha with rfl | later
    · rcases List.mem_cons.1 hb with rfl | later
      · rfl
      · exact absurd (first _ later) hab
    · rcases List.mem_cons.1 hb with rfl | later'
      · exact absurd (first _ later) hba
      · exact ih later later'

theorem pairwise_settled : (input.stamped input.store.next (input.events inherited)).Pairwise
    fun a b => ∀ member ∈ a.2.settled, member ∉ b.2.settled := by
  have apart := @pairwise_events input inherited
  rw [← input.map_snd_stamped input.store.next (input.events inherited)] at apart
  exact List.pairwise_map.1 apart

/-- An inherited member is settled in one bucket. -/
theorem Settles.eq (h : input.Settles inherited next name bucket)
    (h' : input.Settles inherited next' name' bucket') (hm : member ∈ bucket.members)
    (hm' : member ∈ bucket'.members) : next = next' ∧ bucket = bucket' := by
  have same := eq_of_pairwise pairwise_settled h h' (fun apart => apart member hm hm')
    (fun apart => apart member hm' hm)
  obtain ⟨rfl, e⟩ := Prod.mk.inj same
  exact ⟨rfl, (SynthesisEvent.settle.inj e).2⟩

theorem Settles.mem_inherited (h : input.Settles inherited next name bucket)
    (hm : member ∈ bucket.members) : member ∈ inherited :=
  (h.mem_iff.1 hm).1

/-- No two fake overrides are given one id. -/
theorem Settles.eq_of_materializes (h : input.Settles inherited next name bucket)
    (h' : input.Settles inherited next name' bucket') (made : input.Materializes bucket)
    (made' : input.Materializes bucket') : bucket = bucket' := by
  have later {n : String} {b : Bucket} (hb : input.Materializes b) :
      ¬next.number + (input.additions next (.settle n b)).pending.length ≤ next.number := by
    rw [pending_settle_of_materializes hb]
    simp
  have same := eq_of_pairwise (input.pairwise_stamped _ _) h h' (later made) (later made')
  exact (SynthesisEvent.settle.inj (Prod.mk.inj same).2).2

end Settles

/-! ## Runs -/

variable {x y : DeclId} {conflict : Conflict}

theorem set_start : input.start.set = OverrideSet.pushAll { owner := input.owner }
    (input.declared.map fun declaration => (declaration.name, ⟨declaration.id, .declared⟩)) := by
  rw [OverrideSet.pushAll, List.foldl_map]
  rfl

theorem members_start : input.start.set.members.Perm
    (input.declared.map fun declaration => ⟨declaration.id, .declared⟩) := by
  rw [set_start]
  refine (OverrideSet.members_pushAll _ _).trans ?_
  rw [List.map_map]
  exact List.Perm.refl _

theorem overriddenBy_start : input.start.set.overriddenBy x = [] := by
  rw [set_start, OverrideSet.overriddenBy, OverrideSet.overridden_pushAll]
  rfl

/-- A member overrides what it validly overrides as a declared one, and the members of the bucket
that it stands for as a fake override. -/
theorem mem_overriddenBy_run_iff : y ∈ (input.run inherited).set.overriddenBy x ↔
    (∃ member ∈ inherited, ∃ declared ∈ input.declaredNamed member.declaration.name,
      input.check declared member = .overridable ∧ x = declared.id ∧ y = member.id) ∨
    ∃ name bucket, input.Settles inherited x name bucket ∧ input.Materializes bucket ∧
      y ∈ bucket.ids := by
  rw [run_eq, Progress.mem_overriddenBy_addAll, overriddenBy_start, logFrom]
  simp only [List.not_mem_nil, false_or, List.mem_flatMap, List.mem_map, exists_exists_and_eq_and]
  constructor
  · rintro ⟨⟨next, _ | _⟩, hs, hp⟩
    · obtain ⟨hm, rfl, hd⟩ := check_mem_events_iff.1 (mem_stamped_iff.2 ⟨_, hs⟩)
      exact .inl ⟨_, hm, _, hd, mem_overridden_check_iff.1 hp⟩
    · obtain ⟨made, rfl, hy⟩ := mem_overridden_settle_iff.1 hp
      exact .inr ⟨_, _, hs, made, hy⟩
  · rintro (⟨member, hm, declared, hd, checked⟩ | ⟨name, bucket, hs, made, hy⟩)
    · obtain ⟨next, hs⟩ := mem_stamped_iff.1 (check_mem_events_iff.2 ⟨hm, rfl, hd⟩)
      exact ⟨_, hs, mem_overridden_check_iff.2 checked⟩
    · exact ⟨_, hs, mem_overridden_settle_iff.2 ⟨made, rfl, hy⟩⟩

/-- The conflicts are the failed checks, and the clashes in buckets that are not joined. -/
theorem mem_conflicts_run_iff : conflict ∈ (input.run inherited).conflicts ↔
    (∃ member ∈ inherited, ∃ declared ∈ input.declaredNamed member.declaration.name, ∃ reason,
      input.check declared member = .conflict reason ∧ conflict =
        ⟨member.declaration.name, declared.id, member.id, .incompatibleOverride reason⟩) ∨
    ∃ next name bucket, input.Settles inherited next name bucket ∧
      ∃ i head, bucket.Heads input.lookup i ∧ bucket.members[i]? = some head ∧
        conflict = ⟨name, bucket.first.id, head.id, .inheritedClash⟩ := by
  rw [conflicts_run, log, logFrom]
  simp only [List.mem_flatMap, List.mem_map, exists_exists_and_eq_and]
  constructor
  · rintro ⟨⟨next, _ | _⟩, hs, hc⟩
    · obtain ⟨hm, rfl, hd⟩ := check_mem_events_iff.1 (mem_stamped_iff.2 ⟨_, hs⟩)
      exact .inl ⟨_, hm, _, hd, mem_conflicts_check_iff.1 hc⟩
    · exact .inr ⟨_, _, _, hs, mem_conflicts_settle_iff.1 hc⟩
  · rintro (⟨member, hm, declared, hd, checked⟩ | ⟨next, name, bucket, hs, clash⟩)
    · obtain ⟨next, hs⟩ := mem_stamped_iff.1 (check_mem_events_iff.2 ⟨hm, rfl, hd⟩)
      exact ⟨_, hs, mem_conflicts_check_iff.2 checked⟩
    · exact ⟨_, hs, mem_conflicts_settle_iff.2 clash⟩

/-- The declarations that are made are the fake overrides of the buckets that need one. -/
theorem mem_pending_run_iff {fake : Declaration} : fake ∈ (input.run inherited).pending ↔
    ∃ next name bucket, input.Settles inherited next name bucket ∧ input.Materializes bucket ∧
      fake = input.fakeFor next bucket := by
  rw [pending_run, log, logFrom]
  simp only [List.mem_flatMap, List.mem_map, exists_exists_and_eq_and]
  constructor
  · rintro ⟨⟨next, _ | ⟨name, bucket⟩⟩, hs, hf⟩
    · simp [pending_check] at hf
    · by_cases made : input.Materializes bucket
      · rw [pending_settle_of_materializes made] at hf
        exact ⟨_, _, _, hs, made, List.mem_singleton.1 hf⟩
      · simp [pending_settle_of_not_materializes made] at hf
  · rintro ⟨next, name, bucket, hs, made, rfl⟩
    exact ⟨_, hs, by simp [pending_settle_of_materializes made]⟩

theorem Settles.fakeFor_mem_pending {next : DeclId} {name : String} {bucket : Bucket}
    (settles : input.Settles inherited next name bucket) (made : input.Materializes bucket) :
    input.fakeFor next bucket ∈ (input.run inherited).pending :=
  mem_pending_run_iff.2 ⟨next, name, bucket, settles, made, rfl⟩

theorem map_id_pending_logFrom (next : DeclId) (events : List SynthesisEvent) :
    ((input.logFrom next events).flatMap (·.pending)).map (·.id) =
      (List.range' next.number ((input.logFrom next events).flatMap (·.pending)).length).map
        DeclId.mk := by
  induction events generalizing next with
  | nil => rfl
  | cons event rest ih =>
    have first : (input.additions next event).pending = [] ∨
        ∃ fake, (input.additions next event).pending = [fake] ∧ fake.id = next := by
      cases event with
      | check => exact .inl pending_check
      | settle name bucket =>
        by_cases made : input.Materializes bucket
        · exact .inr ⟨_, pending_settle_of_materializes made, rfl⟩
        · exact .inl (pending_settle_of_not_materializes made)
    have unfolded : input.logFrom next (event :: rest) = input.additions next event ::
        input.logFrom ⟨next.number + (input.additions next event).pending.length⟩ rest := rfl
    rw [unfolded, List.flatMap_cons, List.map_append, ih]
    rcases first with none | ⟨fake, one, e⟩
    · simp [none]
    · rw [one, List.length_append, List.length_singleton, Nat.add_comm 1, List.range'_succ]
      simp [e]

/-- The fake overrides of a run are given the next ids in their order. -/
theorem map_id_pending_run : (input.run inherited).pending.map (·.id) =
    (List.range' input.store.next.number (input.run inherited).pending.length).map DeclId.mk := by
  rw [pending_run]
  exact map_id_pending_logFrom _ _

theorem next_run : (input.run inherited).next.number =
    input.store.next.number + (input.run inherited).pending.length := by
  rw [pending_run, run_eq, Progress.next_addAll]
  rfl

/-- A run has entries for members that override something only. -/
theorem supported_run : (input.run inherited).set.Supported := by
  rw [run_eq]
  refine Progress.supported_addAll _ _ fun _ _ found => ?_
  rw [set_start, OverrideSet.overridden_pushAll] at found
  simp at found

/-- The members are the declared ones, and what the settled buckets add. -/
theorem members_run : (input.run inherited).set.members.Perm
    ((input.declared.map fun declaration => ⟨declaration.id, .declared⟩) ++
      (input.stamped input.store.next (input.events inherited)).flatMap fun stamp =>
        (input.additions stamp.1 stamp.2).members.map Prod.snd) := by
  rw [run_eq]
  refine (Progress.members_addAll _ _).trans (members_start.append ?_)
  rw [logFrom, List.flatMap_map, List.map_flatMap]

/-- What a run adds to the set are the members that stand for joined buckets, under their names. -/
theorem mem_members_log_iff {pair : String × EffectiveMember} :
    pair ∈ (input.log inherited).flatMap (·.members) ↔
      ∃ next bucket, input.Settles inherited next pair.1 bucket ∧ bucket.Joined input.lookup ∧
        pair.2 = input.representative next bucket := by
  simp only [log, logFrom, List.flatMap_map, List.mem_flatMap]
  constructor
  · rintro ⟨⟨next, _ | ⟨name, bucket⟩⟩, hs, hm⟩
    · simp [members_check] at hm
    · by_cases joined : bucket.Joined input.lookup
      · rw [members_settle_of_joined joined, List.mem_singleton] at hm
        subst hm
        exact ⟨next, bucket, hs, joined, rfl⟩
      · simp [members_settle_of_not_joined joined] at hm
  · rintro ⟨next, bucket, settles, joined, same⟩
    exact ⟨_, settles, by simp [members_settle_of_joined joined, ← same]⟩

/-- The members that are not declared stand for the joined buckets that are settled. -/
theorem mem_standing_iff {member : EffectiveMember} :
    member ∈ ((input.stamped input.store.next (input.events inherited)).flatMap fun stamp =>
        (input.additions stamp.1 stamp.2).members.map Prod.snd) ↔
      ∃ next name bucket, input.Settles inherited next name bucket ∧ bucket.Joined input.lookup ∧
        member = input.representative next bucket := by
  have added : ((input.stamped input.store.next (input.events inherited)).flatMap fun stamp =>
      (input.additions stamp.1 stamp.2).members.map Prod.snd) =
      ((input.log inherited).flatMap (·.members)).map Prod.snd := by
    rw [log, logFrom, List.flatMap_map, List.map_flatMap]
  rw [added, List.mem_map]
  constructor
  · rintro ⟨pair, hp, rfl⟩
    obtain ⟨next, bucket, settles, joined, e⟩ := mem_members_log_iff.1 hp
    exact ⟨next, pair.1, bucket, settles, joined, e⟩
  · rintro ⟨next, name, bucket, settles, joined, rfl⟩
    exact ⟨(name, _), mem_members_log_iff.2 ⟨next, bucket, settles, joined, rfl⟩, rfl⟩

theorem mem_members_run_iff {member : EffectiveMember} :
    member ∈ (input.run inherited).set.members ↔
      (∃ declaration ∈ input.declared, member = ⟨declaration.id, .declared⟩) ∨
      ∃ next name bucket, input.Settles inherited next name bucket ∧ bucket.Joined input.lookup ∧
        member = input.representative next bucket := by
  rw [members_run.mem_iff, List.mem_append, mem_standing_iff]
  exact or_congr_left (by simp [eq_comm])

/-! ## Groups -/

def standInsNamed (input : SynthesisInput) (inherited : List Inherited) (name : String) :
    List EffectiveMember :=
  (((input.logFrom input.store.next (input.events inherited)).flatMap (·.members)).filter
    (·.1 = name)).map Prod.snd

theorem group_run (input : SynthesisInput) (inherited : List Inherited) (name : String) :
    (input.run inherited).set.group name =
      input.start.set.group name ++ input.standInsNamed inherited name := by
  rw [run_eq, Progress.group_addAll, standInsNamed]

theorem mem_standInsNamed_iff {name : String} {member : EffectiveMember} :
    member ∈ input.standInsNamed inherited name ↔
      ∃ next bucket, input.Settles inherited next name bucket ∧ bucket.Joined input.lookup ∧
        member = input.representative next bucket := by
  rw [standInsNamed, List.mem_map]
  constructor
  · rintro ⟨pair, hp, rfl⟩
    obtain ⟨added, named⟩ := List.mem_filter.1 hp
    obtain rfl := of_decide_eq_true named
    exact mem_members_log_iff.1 added
  · intro stands
    exact ⟨(name, member), List.mem_filter.2 ⟨mem_members_log_iff.2 stands, by simp⟩, rfl⟩

end SynthesisInput

end ClassSymbols
