import ClassSymbols.Proofs.Overrides.StandIns
import ClassSymbols.Proofs.Store.Filling
import Mathlib.Data.List.Count

/-!
# The order of effective members

A synthesis adds the declared members to a set first, and then settles the buckets of inherited
members name by name. So the set lists the names of declared members before the others, those of
inherited members in the order in which supertypes list them, and each group lists its declared
members before those that stand for a bucket.

## Main definitions

* `Store.namesOf`, `Store.offeredNames` — the names of declared members, and of those that
  supertypes offer.
* `Store.unbound` — the inherited members of a name that no declared member has the shape of.
* `OverrideSet.namesInOrder` — the names of the groups of a set.
* `OverrideSynthesis.StandsFor` — whether a member stands for a bucket.
* `OverrideSynthesis.Listed` — the order of the members and the conflicts of a result.

## Main statements

* `SynthesisInput.blocks_stamped` — the events of a run come name by name.
* `listed_of_synthesizeWith` — every result lists its members and conflicts in this order.
-/

namespace ClassSymbols

/-! ## Names and members that a synthesis reads -/

namespace Store

variable (store : Store)

def namesOf (ids : List DeclId) : List String := (ids.filterMap store.get?).map (·.name)

def isNamed (name : String) (id : DeclId) : Bool := (store.get? id).any (·.name = name)

/-- The name of a stored function or property that classes can inherit. -/
def offeredName? (id : DeclId) : Option String :=
  ((store.get? id).filter fun declaration =>
    declaration.isCallable && declaration.visibility.isInheritable).map (·.name)

/-- The names of the functions and properties that supertypes list and a class can inherit. -/
def offeredNames (supertypes : List SupertypeMembers) : List String :=
  (supertypes.flatMap (·.members)).filterMap store.offeredName?

open Classical in
/-- The members called `name` that a class inherits and no declared member has the shape of. -/
noncomputable def unbound (declared : List DeclId) (supertypes : List SupertypeMembers)
    (name : String) :
    List Inherited :=
  (store.inheritedFrom supertypes).filter fun member =>
    member.declaration.name = name ∧
      ∀ id signature, ¬store.DeclaredLike declared member id signature

end Store

/-! ## Results in order -/

/-- The names of the declared members, and then those of the offered ones that have an effective
member, each in the order of its first occurrence. -/
def OverrideSet.namesInOrder (set : OverrideSet) (store : Store) (declared : List DeclId)
    (supertypes : List SupertypeMembers) : List String :=
  (store.namesOf declared).eraseDups ++ (store.offeredNames supertypes).eraseDups.filter fun name =>
    name ∉ store.namesOf declared ∧ set.group name ≠ []

/-- Whether a member stands for a bucket: it is the only member of the bucket, or a fake override of
all of them. -/
def OverrideSynthesis.StandsFor (synthesis : OverrideSynthesis) (bucket : Bucket)
    (member : EffectiveMember) :
    Prop :=
  (bucket.others = [] ∧ member = ⟨bucket.first.id, .inherited⟩) ∨
    (member.origin ≠ .declared ∧
      ∃ fake ∈ synthesis.pending, fake.id = member.id ∧ fake.overridden = bucket.ids)

open Classical in
/-- How a result lists its members and conflicts. -/
structure OverrideSynthesis.Listed (store : Store) (lookup : OverriddenLookup)
    (declared : List DeclId) (supertypes : List SupertypeMembers) (synthesis : OverrideSynthesis) :
    Prop where
  /-- The groups come in the order of the names. -/
  groups : synthesis.set.groups.entries =
    (synthesis.set.namesInOrder store declared supertypes).map fun name =>
      (name, synthesis.set.group name)
  /-- A group lists its declared members in their order, and then a member for each joined bucket,
  in the order of the first members of the buckets. -/
  group : ∀ name, ∃ buckets standing,
    Bucketed (store.unbound declared supertypes name) buckets ∧
    (buckets.map (·.first)).Sublist (store.unbound declared supertypes name) ∧
    List.Forall₂ synthesis.StandsFor (buckets.filter (·.Joined lookup)) standing ∧
    synthesis.set.group name = (declared.filter (store.isNamed name)).map (⟨·, .declared⟩) ++
      standing
  /-- The members are listed group by group. -/
  members : synthesis.set.members =
    (synthesis.set.namesInOrder store declared supertypes).flatMap synthesis.set.group
  memberIds : synthesis.set.memberIds =
    (synthesis.set.namesInOrder store declared supertypes).flatMap fun name =>
    (synthesis.set.group name).map (·.id)
  /-- A declared member is listed as often as it is declared. -/
  declared_count : ∀ id, synthesis.set.members.count ⟨id, .declared⟩ = declared.count id
  /-- A declared member whose id has been given out is no other effective member. -/
  own_count : ∀ id ∈ declared,
    id.number < store.next.number → synthesis.set.memberIds.count id = declared.count id
  /-- The conflicts come in the order of the offered names. -/
  conflicts : synthesis.conflicts = (store.offeredNames supertypes).eraseDups.flatMap fun name =>
    synthesis.conflicts.filter (·.name = name)

theorem OverrideSet.members_eq_flatMap (set : OverrideSet) :
    set.members = set.groups.keys.flatMap set.group := by
  rw [members, OrderedMap.values_eq_map_keys _ [], ← List.flatMap_def]
  rfl

/-! ## Names -/

def SynthesisEvent.name : SynthesisEvent → String
  | .check name _ _ => name
  | .settle name _ => name

namespace SynthesisInput

variable {input : SynthesisInput} {declared : List DeclId} {supertypes : List SupertypeMembers}
  {inherited : List Inherited} {next : DeclId} {event : SynthesisEvent}

theorem name_of_mem_members {member : String × EffectiveMember}
    (h : member ∈ (input.additions next event).members) : member.1 = event.name := by
  cases event with
  | check => simp [members_check] at h
  | settle name bucket =>
    by_cases joined : bucket.Joined input.lookup
    · rw [members_settle_of_joined joined] at h
      exact congrArg Prod.fst (List.mem_singleton.1 h)
    · simp [members_settle_of_not_joined joined] at h

theorem name_of_mem_conflicts {conflict : Conflict}
    (h : conflict ∈ (input.additions next event).conflicts) :
    conflict.name = event.name := by
  cases event with
  | check =>
    obtain ⟨_, -, rfl⟩ := mem_conflicts_check_iff.1 h
    rfl
  | settle =>
    obtain ⟨_, _, -, -, rfl⟩ := mem_conflicts_settle_iff.1 h
    rfl

theorem name_of_mem_groupEvents {group : String × List Inherited}
    (h : event ∈ input.groupEvents group) :
    event.name = group.1 := by
  rcases List.mem_append.1 h with checks | settles
  · obtain ⟨_, -, checks⟩ := List.mem_flatMap.1 checks
    obtain ⟨_, -, rfl⟩ := List.mem_map.1 checks
    rfl
  · obtain ⟨_, -, rfl⟩ := List.mem_map.1 settles
    rfl

/-- The events of a run come name by name, in the order in which the names are offered. -/
theorem blocks_stamped : Blocks (fun stamp => stamp.2.name) (groupByName inherited).keys
    (input.stamped input.store.next (input.events inherited)) := by
  have blocks : Blocks SynthesisEvent.name (groupByName inherited).keys (input.events inherited) :=
    Blocks.flatMap_pairs _ fun _ _ _ he => name_of_mem_groupEvents he
  rw [← input.map_snd_stamped input.store.next (input.events inherited)] at blocks
  exact blocks.of_map

/-- What a run adds comes name by name. -/
theorem blocks_log {κ : Type} {f : Additions → List κ} {key : κ → String}
    (keyed : ∀ next event, ∀ x ∈ f (input.additions next event), key x = event.name) :
    Blocks key (groupByName inherited).keys ((input.log inherited).flatMap f) := by
  rw [log, logFrom, List.flatMap_map]
  exact blocks_stamped.flatMap fun stamp _ x hx => keyed stamp.1 stamp.2 x hx

/-- The conflicts come name by name. -/
theorem conflicts_eq_flatMap :
    (input.run inherited).conflicts = (groupByName inherited).keys.flatMap fun name =>
    (input.run inherited).conflicts.filter (·.name = name) := by
  have blocks : Blocks Conflict.name (groupByName inherited).keys
    ((input.log inherited).flatMap (·.conflicts)) :=
    blocks_log fun _ _ _ hc => name_of_mem_conflicts hc
  rw [← conflicts_run] at blocks
  exact blocks.eq_flatMap_filter (groupByName inherited).nodup_keys

/-! ## Groups -/

/-- The events of a name are those of its group. -/
theorem filter_events (name : String) : (input.events inherited).filter (·.name = name) =
    input.groupEvents (name, inherited.filter (·.declaration.name = name)) := by
  have named : ∀ group ∈ (groupByName inherited).entries, ∀ event ∈ input.groupEvents group,
      decide (event.name = name) = decide (group.1 = name) :=
    fun group _ event he => by rw [name_of_mem_groupEvents he]
  rw [events, filter_flatMap_eq named, OrderedMap.filter_entries, ← getD_groupByName]
  cases (groupByName inherited).get? name with
  | none => rfl
  | some members => simp

namespace Collects

variable (collects : input.Collects declared supertypes inherited)
include collects

/-- The member that stands for a joined bucket is its only member or a fake override of all of
them. -/
theorem standsFor_representative {name : String} {bucket : Bucket}
    (settles : input.Settles inherited next name bucket) (joined : bucket.Joined input.lookup) :
    (input.outcome inherited).StandsFor bucket (input.representative next bucket) := by
  cases keeps : input.keeps bucket
  · exact .inr ⟨originOf_ne_declared _ _, _, settles.fakeFor_mem_pending ⟨joined, keeps⟩,
      (id_representative_of_not_keeps keeps).symm, collects.overridden_fakeFor settles⟩
  · exact .inl ⟨(keeps_iff.1 keeps).1, representative_of_keeps keeps⟩

open Classical in
/-- The members that stand for joined buckets are listed in the order of the buckets. -/
theorem forall₂_standing {name : String} {buckets : List Bucket}
    {stamps : List (DeclId × SynthesisEvent)}
    (settled : ∀ stamp ∈ stamps, stamp ∈ input.stamped input.store.next (input.events inherited))
    (mapped : stamps.map Prod.snd = buckets.map (.settle name)) :
    List.Forall₂ (input.outcome inherited).StandsFor (buckets.filter (·.Joined input.lookup))
      ((stamps.flatMap fun stamp => (input.additions stamp.1 stamp.2).members).map Prod.snd) := by
  induction buckets generalizing stamps with
  | nil =>
    obtain rfl := List.map_eq_nil_iff.1 mapped
    exact .nil
  | cons bucket rest ih =>
    obtain ⟨⟨next, event⟩, later, rfl, rfl, mapped'⟩ := List.map_eq_cons_iff.1 mapped
    have settles : input.Settles inherited next name bucket := settled _ List.mem_cons_self
    have standing := ih (fun stamp hs => settled stamp (List.mem_cons_of_mem _ hs)) mapped'
    rw [List.filter_cons, List.flatMap_cons]
    by_cases joined : bucket.Joined input.lookup
    · rw [if_pos (decide_eq_true joined), members_settle_of_joined joined]
      exact .cons (collects.standsFor_representative settles joined) standing
    · rw [if_neg (by simpa using joined), members_settle_of_not_joined joined]
      exact standing

open Classical in
/-- The unbound members of a name, in their order. -/
theorem unbound_eq (name : String) : input.store.unbound declared supertypes name =
    (inherited.filter (·.declaration.name = name)).filter fun member =>
      !input.isBound (input.declaredNamed name) member := by
  rw [Store.unbound, ← eq_inheritedFrom collects.offered, List.filter_filter]
  refine List.filter_congr fun member hm => ?_
  by_cases named : member.declaration.name = name
  · subst named
    have free := (collects.binds_iff hm).not
    rw [← isBound_iff] at free
    rw [Bool.eq_iff_iff]
    simpa using free.symm
  · simp [named]

open Classical in
/-- What a run adds to a group stands for the joined buckets of its unbound members, in their
order. -/
theorem exists_buckets (name : String) : ∃ buckets,
    Bucketed (input.store.unbound declared supertypes name) buckets ∧
    (buckets.map (·.first)).Sublist (input.store.unbound declared supertypes name) ∧
    List.Forall₂ (input.outcome inherited).StandsFor (buckets.filter (·.Joined input.lookup))
      (input.standInsNamed inherited name) := by
  refine ⟨_, bucketed_bucketByShape _, sublist_first_bucketByShape _, ?_⟩
  have named : ∀ stamp ∈ input.stamped input.store.next (input.events inherited),
      ∀ member ∈ (input.additions stamp.1 stamp.2).members,
        decide (member.1 = name) = decide (stamp.2.name = name) :=
    fun stamp _ member hm => by rw [name_of_mem_members hm]
  rw [standInsNamed, logFrom, List.flatMap_map, filter_flatMap_eq named]
  -- the stamps of the name are those of the checks, which add no member, and those of the buckets
  have stamps :
      ((input.stamped input.store.next (input.events inherited)).filter (·.2.name = name)).map
        Prod.snd =
        input.groupEvents (name, inherited.filter (·.declaration.name = name)) := by
    rw [← filter_events, ← input.map_snd_stamped input.store.next (input.events inherited),
      List.filter_map]
    simp [Function.comp_def, map_snd_stamped]
  obtain ⟨checks, settled, split, checked, mapped⟩ := List.map_eq_append_iff.1 stamps
  have none : checks.flatMap (fun stamp => (input.additions stamp.1 stamp.2).members) = [] := by
    refine List.flatMap_eq_nil_iff.2 fun stamp hs => ?_
    have listed : stamp.2 ∈ checks.map Prod.snd := List.mem_map_of_mem hs
    rw [checked] at listed
    obtain ⟨_, -, listed⟩ := List.mem_flatMap.1 listed
    obtain ⟨_, -, e⟩ := List.mem_map.1 listed
    rw [← e, members_check]
  rw [split, List.flatMap_append, none, List.nil_append, collects.unbound_eq]
  refine collects.forall₂_standing (fun stamp hs => ?_) mapped
  exact (List.mem_filter.1 (split ▸ List.mem_append_right _ hs)).1

/-! ## Declared members -/

theorem map_id_declared : input.declared.map (·.id) = declared := by
  have same : List.Forall₂ (· = ·) declared (input.declared.map (·.id)) :=
    List.forall₂_map_right_iff.2 ((mapM_eq_ok_iff.1 collects.resolved).imp fun _ _ ok =>
      (collects.keyed (Store.resolve_eq_ok_iff.1 ok)).symm)
  rw [List.forall₂_eq_eq_eq] at same
  exact same.symm

theorem namesOf_declared : input.store.namesOf declared = input.declared.map (·.name) := by
  have stored : ∀ declaration ∈ input.declared,
    (input.store.get? ∘ Declaration.id) declaration = some declaration :=
    fun _ hd => (collects.mem_declared_iff.1 hd).2
  rw [Store.namesOf, ← collects.map_id_declared, List.filterMap_map, List.filterMap_congr stored,
    List.filterMap_some]

theorem map_filter_declared (name : String) :
    (input.declared.filter (·.name = name)).map (·.id) =
      declared.filter (input.store.isNamed name) := by
  have named : ∀ declaration ∈ input.declared,
      decide (declaration.name = name) = input.store.isNamed name declaration.id :=
    fun declaration hd => by
    rw [Store.isNamed, (collects.mem_declared_iff.1 hd).2, Option.any_some]
  rw [← collects.map_id_declared, List.filter_map, List.filter_congr named]
  rfl

theorem group_start (name : String) : input.start.set.group name =
    (declared.filter (input.store.isNamed name)).map (⟨·, .declared⟩) := by
  rw [set_start, OverrideSet.group_pushAll, ← collects.map_filter_declared, List.filter_map,
    List.map_map, List.map_map]
  rfl

theorem keys_start : input.start.set.groups.keys = (input.store.namesOf declared).eraseDups := by
  rw [set_start, OverrideSet.keys_pushAll, collects.namesOf_declared]
  simp [Function.comp_def]

/-- The names of what a class inherits come in the order in which supertypes offer them. -/
theorem keys_groupByName_eq :
    (groupByName inherited).keys = (input.store.offeredNames supertypes).eraseDups := by
  have named : ∀ id ∈ (supertypes.flatMap (·.members)).eraseDups,
      (input.store.inheritedAs? supertypes id).map (·.declaration.name) =
        input.store.offeredName? id := by
    intro id hid
    have listed : ∃ supertype ∈ supertypes, id ∈ supertype.members := by
      simpa using List.mem_eraseDups.1 hid
    cases stored : input.store.get? id with
    | none => simp [Store.inheritedAs?, Store.offeredName?, stored]
    | some declaration =>
      cases inherits : input.store.inheritedAs? supertypes id with
      | none =>
        rcases (Store.inheritedAs?_eq_none_iff stored listed).1 inherits with other | hidden
        · simp [Store.offeredName?, stored, Option.filter, other]
        · simp [Store.offeredName?, stored, Option.filter, hidden]
      | some member =>
        obtain ⟨known, -, inheritable, -⟩ := Store.inheritedAs?_eq_some_iff.1 inherits
        obtain rfl := Option.some.inj (stored.symm.trans known)
        have callable := Store.isCallable_of_inheritedAs? inherits
        simp [Store.offeredName?, stored, Option.filter, callable, inheritable]
  rw [keys_groupByName, eq_inheritedFrom collects.offered, Store.inheritedFrom, List.map_filterMap,
    List.filterMap_congr named, eraseDups_filterMap_eraseDups, Store.offeredNames]

/-- The groups come in the order of the names. -/
theorem keys_run : (input.run inherited).set.groups.keys =
    (input.run inherited).set.namesInOrder input.store declared supertypes := by
  have blocks :
      Blocks Prod.fst (groupByName inherited).keys ((input.log inherited).flatMap (·.members)) :=
    blocks_log fun _ _ _ hm => name_of_mem_members hm
  have added := blocks.eraseDups_keys (groupByName inherited).nodup_keys
  rw [groups_run, OverrideSet.keys_pushAll, added, collects.keys_start, OverrideSet.namesInOrder,
    ← collects.keys_groupByName_eq, List.filter_filter]
  refine congrArg _ (List.filter_congr fun name _ => ?_)
  -- a name that is not declared has a group iff the run adds a member under it
  rw [group_run, collects.group_start, standInsNamed, ← log]
  by_cases known : name ∈ input.store.namesOf declared
  · simp [known]
  · have none : declared.filter (input.store.isNamed name) = [] := by
      refine List.filter_eq_nil_iff.2 fun id hid named => known ?_
      obtain ⟨declaration, stored, e⟩ := (Option.any_eq_true _ _).1 named
      exact List.mem_map.2 ⟨declaration, List.mem_filterMap.2 ⟨id, hid, stored⟩,
        of_decide_eq_true e⟩
    rw [none, Bool.eq_iff_iff]
    simp [known, List.filter_eq_nil_iff]

/-- The members are the declared ones and those that stand for buckets. -/
theorem perm_members : (input.run inherited).set.members.Perm
    (declared.map (⟨·, .declared⟩) ++
      (input.stamped input.store.next (input.events inherited)).flatMap fun stamp =>
      (input.additions stamp.1 stamp.2).members.map Prod.snd) := by
  rw [← collects.map_id_declared, List.map_map]
  exact members_run

/-- A declared member is listed as such as often as it is declared. -/
theorem count_members (id : DeclId) :
    (input.run inherited).set.members.count ⟨id, .declared⟩ = declared.count id := by
  have none : (⟨id, .declared⟩ : EffectiveMember) ∉
      (input.stamped input.store.next (input.events inherited)).flatMap fun stamp =>
        (input.additions stamp.1 stamp.2).members.map Prod.snd := fun listed => by
    obtain ⟨_, _, bucket, -, -, e⟩ := mem_standing_iff.1 listed
    exact originOf_ne_declared bucket _ (congrArg EffectiveMember.origin e).symm
  rw [collects.perm_members.count_eq, List.count_append, List.count_eq_zero.2 none]
  exact List.count_map_of_injective declared _ (fun a b e => (EffectiveMember.mk.inj e).1) id

/-- A declared member does not stand for inherited ones as well: it would have bound a member that
looks like it, and fake overrides have new ids. -/
theorem count_memberIds {id : DeclId} (listed : id ∈ declared)
    (old : id.number < input.store.next.number) :
    (input.run inherited).set.memberIds.count id = declared.count id := by
  have none : id ∉ ((input.stamped input.store.next (input.events inherited)).flatMap fun stamp =>
      (input.additions stamp.1 stamp.2).members.map Prod.snd).map (·.id) := fun stands => by
    obtain ⟨_, standing, same⟩ := List.mem_map.1 stands
    obtain ⟨next, name, bucket, settles, joined, rfl⟩ := mem_standing_iff.1 standing
    cases keeps : input.keeps bucket
    · rw [id_representative_of_not_keeps keeps] at same
      have new := settles.le
      rw [same] at new
      omega
    · obtain ⟨-, unmodified, -⟩ := keeps_iff.1 keeps
      rw [representative_of_keeps keeps] at same
      obtain ⟨hm, -, free, -⟩ := settles.mem_iff.1 settles.first_mem
      have stored := collects.get?_eq hm
      have signed : input.store.signature? id = some bucket.first.signature := by
        rw [← same, Store.signature?, stored]
        simpa [Inherited.unmodified] using unmodified
      exact free ((collects.binds_iff hm).2 ⟨id, _, listed, signed, .refl _⟩)
  have own : (declared.map fun id => (⟨id, .declared⟩ : EffectiveMember)).map (·.id) =
      declared := by
    rw [List.map_map]
    exact List.map_id declared
  rw [OverrideSet.memberIds, (collects.perm_members.map _).count_eq, List.map_append,
    List.count_append, List.count_eq_zero.2 none, own, Nat.add_zero]

end Collects

end SynthesisInput

/-- Every result lists its members and conflicts in order. -/
theorem listed_of_synthesizeWith {store store' : Store} {options : SynthesisOptions}
    {lookup : OverriddenLookup} {owner : DeclId} {declared : List DeclId}
    {supertypes : List SupertypeMembers} {synthesis : OverrideSynthesis}
    (keyed : ∀ id declaration, store.get? id = some declaration → declaration.id = id)
    (ok : synthesizeWith options lookup owner declared supertypes store = .ok synthesis store') :
    synthesis.Listed store lookup declared supertypes := by
  obtain ⟨declarations, inherited, collects, rfl, -⟩ :=
    (synthesizeWith_eq_ok_iff_of_keyed fun {id declaration} => keyed id declaration).1 ok
  have keys := collects.keys_run
  refine ⟨?groups, fun name => ?group, ?members, ?memberIds, collects.count_members,
    fun id listed old => collects.count_memberIds listed old, ?conflicts⟩
  case groups =>
    rw [← keys]
    exact OrderedMap.entries_eq_map_keys _ []
  case group =>
    obtain ⟨buckets, parts, firsts, stands⟩ := collects.exists_buckets name
    refine ⟨buckets, _, parts, firsts, stands, ?_⟩
    rw [← collects.group_start]
    exact SynthesisInput.group_run _ _ name
  case members =>
    rw [← keys]
    exact OverrideSet.members_eq_flatMap _
  case memberIds =>
    rw [← keys, ← List.map_flatMap]
    exact congrArg _ (OverrideSet.members_eq_flatMap _)
  case conflicts =>
    rw [← collects.keys_groupByName_eq]
    exact SynthesisInput.conflicts_eq_flatMap

/-- Functions of four names. Those of the name `h` have nothing in common, and the ones called `f`
differ in their parameters. -/
def assorted : List Declaration :=
  let function (id : DeclId) (name : String) (valueParameters : List ValueParameter) :
      Declaration :=
    { id, name, container := none,
      kind := .function { valueParameters, returnType := .nullableAny } }
  [function ⟨1⟩ "g" [], function ⟨2⟩ "f" [], function ⟨3⟩ "h" [],
    function ⟨4⟩ "f" [{ name := "x", type := .nullableAny }],
    function ⟨5⟩ "h" [], function ⟨6⟩ "e" []]

/-- The name `h` is only that of a conflict, and a fake override follows the declared `f`. -/
theorem listed_of_assorted :
    let store := Store.empty.receive ⟨9⟩ assorted
    let supertypes : List SupertypeMembers :=
      [⟨.nullableAny, ⟨7⟩, [⟨3⟩, ⟨4⟩]⟩, ⟨.nullableAny, ⟨7⟩, [⟨5⟩, ⟨6⟩]⟩]
    ∃ synthesis store',
      synthesizeWith {} store.overriddenLookup ⟨8⟩ [⟨1⟩, ⟨2⟩, ⟨1⟩] supertypes store =
        .ok synthesis store' ∧
      synthesis.set.memberIds = [⟨1⟩, ⟨1⟩, ⟨2⟩, ⟨9⟩, ⟨10⟩] ∧
      synthesis.conflicts = [⟨"h", ⟨3⟩, ⟨5⟩, .inheritedClash⟩] ∧
      synthesis.Listed store store.overriddenLookup [⟨1⟩, ⟨2⟩, ⟨1⟩] supertypes := by
  intro store supertypes
  have keyed : ∀ id declaration, store.get? id = some declaration → declaration.id = id :=
    fun _ _ stored => (Store.mem_of_get?_receive_empty stored).2
  have computed :
    (match synthesizeWith {} store.overriddenLookup ⟨8⟩ [⟨1⟩, ⟨2⟩, ⟨1⟩] supertypes store with
      | .ok synthesis _ => decide (synthesis.set.memberIds = [⟨1⟩, ⟨1⟩, ⟨2⟩, ⟨9⟩, ⟨10⟩] ∧
          synthesis.conflicts = [⟨"h", ⟨3⟩, ⟨5⟩, .inheritedClash⟩])
      | .error _ _ => false) = true := by decide +kernel
  cases ok : synthesizeWith {} store.overriddenLookup ⟨8⟩ [⟨1⟩, ⟨2⟩, ⟨1⟩] supertypes store with
  | error e store' => simp [ok] at computed
  | ok synthesis store' =>
    rw [ok] at computed
    obtain ⟨ids, conflicts⟩ := of_decide_eq_true computed
    exact ⟨synthesis, store', rfl, ids, conflicts, listed_of_synthesizeWith keyed ok⟩

end ClassSymbols
