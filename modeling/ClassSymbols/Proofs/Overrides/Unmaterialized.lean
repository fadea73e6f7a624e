import ClassSymbols.Proofs.Overrides.RenamedSets
import ClassSymbols.Proofs.Overrides.Shapes
import ClassSymbols.Proofs.Overrides.Storing

/-!
# Members that represent themselves

An inherited member that looks in the class as it does where it is declared can be represented by a
fake override or by itself. The choice changes no decision of a synthesis: it goes through the same
events either way, and each of them adds the same up to the ids of fake overrides, except that such
a member stands where its fake override would.

## Main definitions

* `SynthesisInput.materializing` — the same synthesis with and without such fake overrides.
* `OverrideSynthesis.Counterpart` — the effective members in one place of the two results.
* `OverrideSynthesis.Unmaterialized` — how the two results are related.

## Main statements

* `SynthesisInput.forall₂_additions` — what the events of the two runs add.
* `synthesizeWith_unmaterialized` — the two results.
-/

namespace ClassSymbols

/-! ## Two results -/

/-- Whether two fake overrides of a class are copies of one member, up to their ids. -/
def Declaration.SameCopy (owner : DeclId) (fake fake' : Declaration) : Prop :=
  ∃ (source : Declaration) (substitution : Substitution) (overridden : List DeclId),
    fake = source.fakeOverride fake.id owner substitution overridden ∧
      fake' = source.fakeOverride fake'.id owner substitution overridden

namespace OverrideSynthesis

/-- Whether two effective members stand in one place of a result with fake overrides for unmodified
members and of one without: a declared member for itself, a fake override for a copy of the same
member that overrides the same members, and the fake override of an unmodified member for that
member, which overrides nothing. -/
def Counterpart (owner : DeclId) (full bare : OverrideSynthesis)
    (member member' : EffectiveMember) : Prop :=
  member'.origin = member.origin ∧
    match member.origin with
    | .declared => member'.id = member.id
    | .inherited =>
      full.set.overriddenBy member.id = [member'.id] ∧ bare.set.overriddenBy member'.id = []
    | .bridge => bare.set.overriddenBy member'.id = full.set.overriddenBy member.id ∧
        ∃ fake ∈ full.pending, ∃ fake' ∈ bare.pending,
          fake.id = member.id ∧ fake'.id = member'.id ∧ Declaration.SameCopy owner fake fake'

/-- How a result with fake overrides for unmodified members is related to one without. Ids from
`next` on are those of fake overrides. -/
structure Unmaterialized (owner next : DeclId) (full bare : OverrideSynthesis) : Prop where
  owners : full.set.owner = owner ∧ bare.set.owner = owner
  conflicts : bare.conflicts = full.conflicts
  groups : OrderedMap.Related id (List.Forall₂ (Counterpart owner full bare)) full.set.groups
    bare.set.groups
  overridden : ∀ id : DeclId,
    id.number < next.number → bare.set.overriddenBy id = full.set.overriddenBy id
  overriding : ∀ id : DeclId, next.number ≤ id.number →
    (full.set.overriddenBy id ≠ [] → id ∈ full.pending.map (·.id)) ∧
      (bare.set.overriddenBy id ≠ [] → id ∈ bare.pending.map (·.id))
  pending : List.Forall₂ (Declaration.SameCopy owner)
    (full.pending.filter fun fake => ⟨fake.id, .bridge⟩ ∈ full.set.members) bare.pending

end OverrideSynthesis

/-! ## Groups -/

namespace OverrideSet

variable {R : EffectiveMember → EffectiveMember → Prop} {set set' : OverrideSet}

theorem related_groups_push (groups : OrderedMap.Related id (List.Forall₂ R) set.groups set'.groups)
    (name : String) {member member' : EffectiveMember} (related : R member member') :
    OrderedMap.Related id (List.Forall₂ R) (set.push name member).groups
      (set'.push name member').groups := by
  refine groups.alter Function.injective_id name fun found => ?_
  cases found with
  | none => exact .cons related .nil
  | some earlier => exact List.rel_append earlier (.cons related .nil)

/-- Pushing related members under the same names keeps the groups related. -/
theorem related_groups_pushAll
    (groups : OrderedMap.Related id (List.Forall₂ R) set.groups set'.groups)
    {members members' : List (String × EffectiveMember)}
    (related : List.Forall₂ (fun a b => b.1 = a.1 ∧ R a.2 b.2) members members') :
    OrderedMap.Related id (List.Forall₂ R) (set.pushAll members).groups
      (set'.pushAll members').groups := by
  unfold pushAll
  induction related generalizing set set' with
  | nil => exact groups
  | @cons a b _ _ first _ ih =>
    obtain ⟨name, member⟩ := a
    obtain ⟨_, member'⟩ := b
    obtain ⟨rfl, related⟩ := first
    exact ih (related_groups_push groups _ related)

end OverrideSet

namespace SynthesisInput

/-! ## Two runs -/

/-- The same synthesis with or without fake overrides for unmodified members. -/
def materializing (input : SynthesisInput) (materialize : Bool) : SynthesisInput :=
  { input with options := { input.options with materialize } }

variable {input : SynthesisInput} {inherited : List Inherited} {declared : List DeclId}
  {supertypes : List SupertypeMembers} {next next' : DeclId} {name : String} {bucket : Bucket}

theorem originOf_eq_inherited_of_ne_bridge {specific : Inherited}
    (other : originOf bucket specific ≠ .bridge) :
    originOf bucket specific = .inherited := by
  unfold originOf at other ⊢
  split <;> simp_all

theorem keeps_full : (input.materializing true).keeps bucket = false := by
  simp [keeps, materializing]

theorem keeps_bare :
    (input.materializing false).keeps bucket =
      (originOf bucket (input.specificOf bucket) == .inherited) := by
  simp [keeps, materializing, specificOf, closuresOf]

theorem representative_full : (input.materializing true).representative next bucket =
    ⟨next, originOf bucket (input.specificOf bucket)⟩ := by
  rw [representative, keeps_full]
  rfl

theorem materializes_full (joined : bucket.Joined input.lookup) :
    (input.materializing true).Materializes bucket :=
  ⟨joined, keeps_full⟩

theorem materializes_bare_iff : (input.materializing false).Materializes bucket ↔
    bucket.Joined input.lookup ∧ originOf bucket (input.specificOf bucket) = .bridge := by
  rw [Materializes, keeps_bare]
  refine and_congr_right fun _ => ?_
  by_cases origin : originOf bucket (input.specificOf bucket) = .bridge
  · simp [origin]
  · simp [originOf_eq_inherited_of_ne_bridge origin]

/-! ## What the events add -/

section Events

variable (reads : (input.materializing true).Reads declared supertypes inherited)
  (reads' : (input.materializing false).Reads declared supertypes inherited)
  (settles : (input.materializing true).Settles inherited next name bucket)
  (settles' : (input.materializing false).Settles inherited next' name bucket)
  (joined : bucket.Joined input.lookup)
include settles joined

include reads reads' settles' in
/-- The members that stand for a joined bucket in the two results are in one place. -/
theorem counterpart_representative :
    OverrideSynthesis.Counterpart input.owner ((input.materializing true).outcome inherited)
      ((input.materializing false).outcome inherited)
      ((input.materializing true).representative next bucket)
      ((input.materializing false).representative next' bucket) := by
  have full := reads.overriddenBy_next settles (materializes_full joined)
  refine ⟨rfl, ?_⟩
  rw [representative_full]
  cases origin : originOf bucket (input.specificOf bucket) with
  | declared => exact absurd origin (originOf_ne_declared _ _)
  | inherited =>
    have keeps : (input.materializing false).keeps bucket = true :=
      keeps_bare.trans (beq_iff_eq.2 origin)
    have alone : bucket.ids = [bucket.first.id] :=
      congrArg (List.map Inherited.id) (members_of_keeps keeps)
    rw [representative_of_keeps keeps]
    exact ⟨full.trans alone, reads'.overriddenBy_kept settles' keeps⟩
  | bridge =>
    have made := materializes_bare_iff.2 ⟨joined, origin⟩
    rw [id_representative_of_not_keeps made.2]
    exact ⟨(reads'.overriddenBy_next settles' made).trans full.symm,
      _, settles.fakeFor_mem_pending (materializes_full joined),
      _, settles'.fakeFor_mem_pending made, rfl, rfl, _, _, _, rfl, rfl⟩

/-- The fake override of a bucket is one of the class as a bridge iff its member would not represent
itself. -/
theorem bridge_mem_members_iff :
    ⟨next, .bridge⟩ ∈ ((input.materializing true).run inherited).set.members ↔
      originOf bucket (input.specificOf bucket) = .bridge := by
  rw [mem_members_run_iff]
  constructor
  · rintro (⟨_, -, e⟩ | ⟨next', name', bucket', settles', joined', e⟩)
    · cases e
    · rw [representative_full] at e
      obtain ⟨rfl, origin⟩ := EffectiveMember.mk.inj e
      obtain rfl :=
        settles.eq_of_materializes settles' (materializes_full joined) (materializes_full joined')
      exact origin.symm
  · intro origin
    exact .inr ⟨next, name, bucket, settles, joined, by rw [representative_full, origin]⟩

end Events

theorem conflicts_settle_of_joined (joined : bucket.Joined input.lookup) :
    (input.additions next (.settle name bucket)).conflicts = [] := by
  rw [additions_settle_of_joined _ joined, standIn]
  split <;> rfl

/-- A joined bucket without fake overrides for unmodified members has one only as a bridge. -/
theorem pending_bare (joined : bucket.Joined input.lookup) :
    ((input.materializing false).additions next (.settle name bucket)).pending =
      if originOf bucket (input.specificOf bucket) = .bridge then
        [(input.materializing false).fakeFor next bucket]
      else [] := by
  split
  · next origin => exact pending_settle_of_materializes (materializes_bare_iff.2 ⟨joined, origin⟩)
  · next origin =>
      exact pending_settle_of_not_materializes fun made => origin (materializes_bare_iff.1 made).2

/-- A bucket adds to what its fake override overrides only, which is no old member. -/
theorem filter_overridden_settle {id : DeclId} (le : input.store.next.number ≤ next.number)
    (old : id.number < input.store.next.number) :
    (input.additions next (.settle name bucket)).overridden.filter (·.1 = id) = [] := by
  refine List.filter_eq_nil_iff.2 fun ⟨x, y⟩ hp => ?_
  obtain ⟨-, rfl, -⟩ := mem_overridden_settle_iff.1 hp
  rw [decide_eq_true_eq]
  rintro rfl
  exact absurd old (Nat.not_lt.2 le)

/-- How what an event adds with fake overrides for unmodified members is related to what it adds
without. -/
structure Corresponds (owner first : DeclId) (full bare : OverrideSynthesis)
    (added added' : Additions) : Prop where
  members :
    List.Forall₂ (fun a b => b.1 = a.1 ∧ OverrideSynthesis.Counterpart owner full bare a.2 b.2)
    added.members added'.members
  conflicts : added'.conflicts = added.conflicts
  overridden : ∀ id : DeclId, id.number < first.number →
    added'.overridden.filter (·.1 = id) = added.overridden.filter (·.1 = id)
  pending : List.Forall₂ (Declaration.SameCopy owner)
    (added.pending.filter fun fake => ⟨fake.id, .bridge⟩ ∈ full.set.members) added'.pending
  reserved : added.pending.length =
    added'.pending.length + added.members.countP (·.2.origin = .inherited)

/-- An event that adds no member adds the same either way. -/
theorem Corresponds.of_eq {owner first : DeclId} {full bare : OverrideSynthesis}
    {added added' : Additions} (same : added' = added) (members : added.members = [])
    (pending : added.pending = []) :
    Corresponds owner first full bare added added' := by
  subst same
  exact ⟨members ▸ .nil, rfl, fun _ _ => rfl, by rw [pending]; exact .nil, by rw [members]; rfl⟩

/-- What stands for a joined bucket and is added either way. -/
theorem corresponds_standIn (reads : (input.materializing true).Reads declared supertypes inherited)
    (reads' : (input.materializing false).Reads declared supertypes inherited)
    (settles : (input.materializing true).Settles inherited next name bucket)
    (settles' : (input.materializing false).Settles inherited next' name bucket)
    (joined : bucket.Joined input.lookup) :
    Corresponds input.owner input.store.next ((input.materializing true).outcome inherited)
      ((input.materializing false).outcome inherited)
      ((input.materializing true).additions next (.settle name bucket))
      ((input.materializing false).additions next' (.settle name bucket)) := by
  have full := materializes_full joined
  have place := counterpart_representative reads reads' settles settles' joined
  have members (materialize : Bool) (stamp : DeclId) :
      ((input.materializing materialize).additions stamp (.settle name bucket)).members =
        [(name, (input.materializing materialize).representative stamp bucket)] :=
          members_settle_of_joined joined
  have conflicts (materialize : Bool) (stamp : DeclId) :
      ((input.materializing materialize).additions stamp (.settle name bucket)).conflicts = [] :=
    conflicts_settle_of_joined joined
  have bridge : ⟨((input.materializing true).fakeFor next bucket).id, .bridge⟩ ∈
      ((input.materializing true).outcome inherited).set.members ↔
        originOf bucket (input.specificOf bucket) = .bridge := bridge_mem_members_iff settles joined
  refine ⟨?_, by rw [conflicts, conflicts], fun id old => ?_, ?_, ?_⟩
  · rw [members, members]
    exact .cons ⟨rfl, place⟩ .nil
  · exact (filter_overridden_settle settles'.le old).trans
      (filter_overridden_settle settles.le old).symm
  · rw [pending_settle_of_materializes full, pending_bare joined]
    by_cases origin : originOf bucket (input.specificOf bucket) = .bridge
    · rw [if_pos origin, List.filter_cons_of_pos (by simpa [bridge] using origin)]
      exact .cons ⟨_, _, _, rfl, rfl⟩ .nil
    · rw [if_neg origin, List.filter_cons_of_neg (by simpa [bridge] using origin)]
      exact .nil
  · rw [pending_settle_of_materializes full, pending_bare joined, members, representative_full]
    by_cases origin : originOf bucket (input.specificOf bucket) = .bridge
    · simp [origin]
    · simp [originOf_eq_inherited_of_ne_bridge origin]

/-- What one event adds to the two runs. -/
theorem corresponds_additions
    (reads : (input.materializing true).Reads declared supertypes inherited)
    (reads' : (input.materializing false).Reads declared supertypes inherited)
    {event : SynthesisEvent}
    (hs : (next, event) ∈ (input.materializing true).stamped input.store.next
      (input.events inherited))
    (hs' : (next', event) ∈ (input.materializing false).stamped input.store.next
      (input.events inherited)) :
    Corresponds input.owner input.store.next ((input.materializing true).outcome inherited)
      ((input.materializing false).outcome inherited)
      ((input.materializing true).additions next event)
        ((input.materializing false).additions next' event) := by
  cases event with
  | check name member declared => exact .of_eq rfl members_check pending_check
  | settle name bucket =>
    by_cases joined : bucket.Joined input.lookup
    · exact corresponds_standIn reads reads' hs hs' joined
    · have unmade (materialize : Bool) : ¬(input.materializing materialize).Materializes bucket :=
        fun h => joined h.1
      obtain ⟨_, others, found, eq⟩ :=
        (input.materializing true).additions_settle_of_not_joined joined next name
      obtain ⟨_, others', found', eq'⟩ :=
        (input.materializing false).additions_settle_of_not_joined joined next' name
      have same : clashes name bucket others' = clashes name bucket others := by
        rw [(List.cons.inj (found'.symm.trans found)).2]
      exact .of_eq (by rw [eq, eq', same]) (by rw [eq]) (by rw [eq])

/-- What the events of the two runs add, in turn. -/
theorem forall₂_additions (reads : (input.materializing true).Reads declared supertypes inherited)
    (reads' : (input.materializing false).Reads declared supertypes inherited) :
    List.Forall₂
      (Corresponds input.owner input.store.next ((input.materializing true).outcome inherited)
        ((input.materializing false).outcome inherited))
      ((input.materializing true).log inherited) ((input.materializing false).log inherited) := by
  have same : List.Forall₂ (fun a b => a.2 = b.2)
      ((input.materializing true).stamped input.store.next (input.events inherited))
      ((input.materializing false).stamped input.store.next (input.events inherited)) := by
    rw [← List.forall₂_map_right_iff, ← List.forall₂_map_left_iff, map_snd_stamped, map_snd_stamped]
    exact List.forall₂_refl _
  rw [log, log, logFrom, logFrom, List.forall₂_map_left_iff, List.forall₂_map_right_iff]
  refine List.forall₂_iff_zip.2 ⟨same.length_eq, fun {a b} listed => ?_⟩
  obtain ⟨ha, hb⟩ := List.of_mem_zip listed
  obtain ⟨next, event⟩ := a
  obtain ⟨next', _⟩ := b
  obtain rfl : event = _ := (List.forall₂_iff_zip.1 same).2 listed
  exact corresponds_additions reads reads' ha hb

/-! ## What the runs find -/

theorem flatMap_eq_of_forall₂ {α β γ : Type} {R : α → β → Prop} {f : α → List γ} {g : β → List γ}
    {xs : List α} {ys : List β} (h : List.Forall₂ R xs ys) (same : ∀ a b, R a b → g b = f a) :
    ys.flatMap g = xs.flatMap f := by
  induction h with
  | nil => rfl
  | cons first _ ih => rw [List.flatMap_cons, List.flatMap_cons, same _ _ first, ih]

/-- A member with a new id that overrides something is one of the fake overrides that were made. -/
theorem Reads.mem_pending_of_overriding {input : SynthesisInput}
    (reads : input.Reads declared supertypes inherited) {id : DeclId}
    (new : input.store.next.number ≤ id.number)
    (overriding : (input.run inherited).set.overriddenBy id ≠ []) :
    id ∈ (input.run inherited).pending.map (·.id) := by
  obtain ⟨other, ho⟩ := List.exists_mem_of_ne_nil _ overriding
  rcases mem_overriddenBy_run_iff.1 ho with ⟨_, -, d, hd, -, rfl, -⟩ | ⟨_, bucket, settles, made, -⟩
  · obtain ⟨declaration, stored, -⟩ :=
      Option.bind_eq_some_iff.1 (reads.mem_declaredNamed_iff.1 hd).2.1
    exact absurd (reads.allocated stored) (Nat.not_lt.2 new)
  · exact List.mem_map_of_mem (f := fun fake : Declaration => fake.id)
      (settles.fakeFor_mem_pending made)

section Runs

variable (reads : (input.materializing true).Reads declared supertypes inherited)
  (reads' : (input.materializing false).Reads declared supertypes inherited)

theorem overriddenBy_run (input : SynthesisInput) (id : DeclId) :
    (input.run inherited).set.overriddenBy id =
    (((input.log inherited).flatMap fun added => added.overridden.filter (·.1 = id)).map
      Prod.snd).foldl
      OverrideSet.note [] := by
  rw [run_eq, Progress.overriddenBy_addAll, overriddenBy_start, List.filter_flatMap, log]

include reads reads'

/-- The results of the two runs. -/
theorem unmaterialized_outcome : OverrideSynthesis.Unmaterialized input.owner input.store.next
    ((input.materializing true).outcome inherited)
      ((input.materializing false).outcome inherited) := by
  have added := forall₂_additions reads reads'
  refine ⟨⟨owner_run, owner_run⟩, ?_, ?_, fun id old => ?_,
    fun id new => ⟨reads.mem_pending_of_overriding new, reads'.mem_pending_of_overriding new⟩, ?_⟩
  · rw [outcome, outcome, conflicts_run, conflicts_run]
    exact flatMap_eq_of_forall₂ added fun _ _ event => event.conflicts
  · have start : OrderedMap.Related id (List.Forall₂ (OverrideSynthesis.Counterpart input.owner
        ((input.materializing true).outcome inherited)
          ((input.materializing false).outcome inherited)))
        input.start.set.groups input.start.set.groups := by
      rw [set_start]
      refine OverrideSet.related_groups_pushAll .empty ?_
      rw [List.forall₂_map_left_iff, List.forall₂_map_right_iff]
      exact List.forall₂_same.2 fun _ _ => ⟨rfl, rfl, rfl⟩
    have groups :=
      OverrideSet.related_groups_pushAll start
        (List.rel_flatMap added fun _ _ event => event.members)
    exact (groups_run (input.materializing true)).symm ▸
      (groups_run (input.materializing false)).symm ▸ groups
  · rw [outcome, outcome, overriddenBy_run, overriddenBy_run]
    exact congrArg _
      (congrArg _ (flatMap_eq_of_forall₂ added fun _ _ event => event.overridden id old))
  · have full : ((input.materializing true).outcome inherited).pending = _ := pending_run _
    have bare : ((input.materializing false).outcome inherited).pending = _ := pending_run _
    rw [full, bare, List.filter_flatMap]
    exact List.rel_flatMap added fun _ _ event => event.pending

/-- One id more is used up for each fake override of an unmodified member. -/
theorem next_run_materializing : ((input.materializing true).run inherited).next.number =
    ((input.materializing false).run inherited).next.number +
      ((input.materializing true).run inherited).set.members.countP (·.origin = .inherited) := by
  have reserved : ((input.materializing true).run inherited).pending.length =
      ((input.materializing false).run inherited).pending.length +
        (((input.materializing true).log inherited).flatMap (·.members)).countP
          (·.2.origin = .inherited) := by
    rw [pending_run, pending_run]
    have added := forall₂_additions reads reads'
    generalize (input.materializing true).log inherited = log,
      (input.materializing false).log inherited = log' at added
    induction added with
    | nil => rfl
    | cons event _ ih =>
      simp only [List.flatMap_cons, List.length_append, List.countP_append, event.reserved, ih]
      omega
  have members :
      ((input.materializing true).run inherited).set.members.countP (·.origin = .inherited) =
        (((input.materializing true).log inherited).flatMap (·.members)).countP
          (·.2.origin = .inherited) := by
    rw [run_eq, ((Progress.members_addAll _ _).trans (members_start.append_right _)).countP_eq,
      List.countP_append, List.countP_map, List.countP_map, List.countP_eq_zero.2 (by simp),
      Nat.zero_add]
    rfl
  rw [next_run, next_run, reserved, members, Nat.add_assoc]
  rfl

end Runs

end SynthesisInput

/-- Whether fake overrides are made for unmodified members changes how these are represented, and
nothing else. -/
theorem synthesizeWith_unmaterialized {store : Store} (wf : store.WellFormed)
    (relation : TypeRelation) (lookup : OverriddenLookup) (owner : DeclId) (declared : List DeclId)
    (supertypes : List SupertypeMembers) :
    match synthesizeWith ⟨relation, true⟩ lookup owner declared supertypes store,
      synthesizeWith ⟨relation, false⟩ lookup owner declared supertypes store with
    | .ok full fullStore, .ok bare bareStore =>
      OverrideSynthesis.Unmaterialized owner store.next full bare ∧
        fullStore = { store with next := fullStore.next } ∧
        bareStore = { store with next := bareStore.next } ∧
        fullStore.next.number = bareStore.next.number +
          full.set.members.countP (·.origin = .inherited)
    | .error full fullStore, .error bare bareStore =>
      bare = full ∧ fullStore = store ∧ bareStore = store
    | .ok _ _, .error _ _ | .error _ _, .ok _ _ => False := by
  cases resolved : declared.mapM store.resolve with
  | error e => simp [synthesizeWith, resolved]
  | ok declarations =>
    cases offered : inheritedMembers store supertypes with
    | error e => simp [synthesizeWith, resolved, offered]
    | ok inherited =>
      let input : SynthesisInput := ⟨store, ⟨relation, true⟩, lookup, owner, declarations⟩
      have reads (materialize : Bool) :
          (input.materializing materialize).Reads declared supertypes inherited :=
        ⟨⟨wf.keyed, resolved, offered⟩, wf.allocated⟩
      have ok (materialize : Bool) :
          synthesizeWith ⟨relation, materialize⟩ lookup owner declared supertypes store =
            .ok ((input.materializing materialize).outcome inherited)
              { store with next := ((input.materializing materialize).run inherited).next } := by
        simp only [synthesizeWith, resolved, offered]
        rfl
      rw [ok true, ok false]
      exact ⟨SynthesisInput.unmaterialized_outcome (reads true) (reads false), rfl, rfl,
        SynthesisInput.next_run_materializing (reads true) (reads false)⟩

/-- A class that declares the last function and extends the other two classes inherits one function
that looks the same in it and one that does not. The first one represents itself, or has the first
fake override. -/
theorem synthesizeWith_unmaterialized_overloads :
    let store := Store.empty.receive ⟨7⟩ overloads
    let supertypes : List SupertypeMembers :=
      [⟨.ofClass ⟨"", "B", false⟩, ⟨2⟩, [⟨4⟩]⟩,
        ⟨(Ty.ofClass ⟨"", "A", false⟩).withArguments [.projected .invariant (.ofClass .int)], ⟨1⟩,
          [⟨3⟩]⟩]
    ∃ full fullStore bare bareStore,
      synthesizeWith ⟨.structural, true⟩ store.overriddenLookup ⟨6⟩ [⟨5⟩] supertypes store =
        .ok full fullStore ∧
      synthesizeWith ⟨.structural, false⟩ store.overriddenLookup ⟨6⟩ [⟨5⟩] supertypes store =
        .ok bare bareStore ∧
      full.set.group "f" = [⟨⟨5⟩, .declared⟩, ⟨⟨7⟩, .inherited⟩, ⟨⟨8⟩, .bridge⟩] ∧
      bare.set.group "f" = [⟨⟨5⟩, .declared⟩, ⟨⟨4⟩, .inherited⟩, ⟨⟨7⟩, .bridge⟩] ∧
      OverrideSynthesis.Unmaterialized ⟨6⟩ ⟨7⟩ full bare ∧
      fullStore.next.number = bareStore.next.number + 1 := by
  intro store supertypes
  have wf : store.WellFormed :=
    (Store.sound_receive_empty (by decide) (by decide) (by decide)).toWellFormed
  have related :=
    synthesizeWith_unmaterialized wf .structural store.overriddenLookup ⟨6⟩ [⟨5⟩] supertypes
  have computed :
    (match synthesizeWith ⟨.structural, true⟩ store.overriddenLookup ⟨6⟩ [⟨5⟩] supertypes store,
      synthesizeWith ⟨.structural, false⟩ store.overriddenLookup ⟨6⟩ [⟨5⟩] supertypes store with
      | .ok full _, .ok bare _ => decide (
          full.set.group "f" = [⟨⟨5⟩, .declared⟩, ⟨⟨7⟩, .inherited⟩, ⟨⟨8⟩, .bridge⟩] ∧
          bare.set.group "f" = [⟨⟨5⟩, .declared⟩, ⟨⟨4⟩, .inherited⟩, ⟨⟨7⟩, .bridge⟩] ∧
          full.set.members.countP (·.origin = .inherited) = 1)
      | .error _ _, .error _ _ => false
      | .ok _ _, .error _ _ | .error _ _, .ok _ _ => false) = true := by decide +kernel
  split at computed
  · next full fullStore bare bareStore ok ok' =>
    rw [ok, ok'] at related
    obtain ⟨fullGroup, bareGroup, one⟩ := of_decide_eq_true computed
    obtain ⟨unmaterialized, -, -, reserved⟩ := related
    exact ⟨full, fullStore, bare, bareStore, ok, ok', fullGroup, bareGroup, unmaterialized,
      one ▸ reserved⟩
  all_goals cases computed

end ClassSymbols
