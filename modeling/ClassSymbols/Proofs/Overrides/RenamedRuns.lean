import ClassSymbols.Proofs.Graph.Closure
import ClassSymbols.Proofs.Overrides.Outcome
import ClassSymbols.Proofs.Overrides.RenamedSets

/-!
# Runs with renamed inputs

The run of a synthesis gives the renamed result if its input is renamed: what it reads is, its
buckets are settled alike, and result types compare in the same way. The fake overrides are under
the ids that the stores give out; the renaming has to take one to the other.

## Main definitions

* `Inherited.Renames` — whether an inherited member is another one after a renaming.
* `SettlesAlike` — whether two lookups find the same clusters, and the same members most specific.
* `SynthesisInput.Renames` — whether the input of a run is a renamed one.

## Main statements

* `SynthesisInput.Renames.run` — the run with a renamed input.
-/

namespace ClassSymbols

/-- Whether an inherited member is another one after a renaming. -/
structure Inherited.Renames (f : DeclId → DeclId) (member renamed : Inherited) : Prop where
  declaration : renamed.declaration.silent = member.declaration.silent.rename f
  substitution : member.substitution.Renames f renamed.substitution
  signature : renamed.signature = member.signature.rename f

theorem Inherited.Renames.id {f : DeclId → DeclId} {member renamed : Inherited}
    (h : member.Renames f renamed) : renamed.id = f member.id := by
  exact congrArg Declaration.id h.declaration

def DeclaredMember.rename (f : DeclId → DeclId) (member : DeclaredMember) : DeclaredMember :=
  ⟨f member.id, member.signature.rename f⟩

/-- Whether two lookups find the same clusters among some members, and that the same ones reach each
other, up to a renaming. -/
structure SettlesAlike (f : DeclId → DeclId) (lookup lookup' : OverriddenLookup)
    (ids : List DeclId) :
    Prop where
  clusters : clusters ((ids.map f).map lookup'.closure) = clusters (ids.map lookup.closure)
  reaches : ∀ a ∈ ids, ∀ b ∈ ids, (lookup'.Reaches (f a) (f b) ↔ lookup.Reaches a b)

/-- Members are settled alike if what they reach is renamed. -/
theorem SettlesAlike.of_reaches {f : DeclId → DeclId} (injective : Function.Injective f)
    {lookup lookup' : OverriddenLookup} {ids : List DeclId}
    (reaches : ∀ a ∈ ids, ∀ y, lookup'.Reaches (f a) y ↔ ∃ x, lookup.Reaches a x ∧ f x = y) :
    SettlesAlike f lookup lookup' ids where
  clusters := by
    have linked : linkedAt ((ids.map f).map lookup'.closure) =
        linkedAt (ids.map lookup.closure) := by
      funext i j
      rw [Bool.eq_iff_iff, linkedAt_closures_iff, linkedAt_closures_iff]
      simp only [List.getElem?_map, Option.map_eq_some_iff]
      constructor
      · rintro ⟨_, _, ⟨a, ha, rfl⟩, ⟨b, hb, rfl⟩, y, first, second⟩
        obtain ⟨x, reached, rfl⟩ := (reaches a (List.mem_of_getElem? ha) y).1 first
        obtain ⟨x', reached', same⟩ := (reaches b (List.mem_of_getElem? hb) _).1 second
        exact ⟨a, b, ha, hb, x, reached, injective same ▸ reached'⟩
      · rintro ⟨a, b, ha, hb, x, first, second⟩
        exact ⟨_, _, ⟨a, ha, rfl⟩, ⟨b, hb, rfl⟩, f x,
          (reaches a (List.mem_of_getElem? ha) _).2 ⟨x, first, rfl⟩,
          (reaches b (List.mem_of_getElem? hb) _).2 ⟨x, second, rfl⟩⟩
    rw [clusters_eq, clusters_eq, linked, List.length_map, List.length_map, List.length_map]
  reaches a ha b _ := by
    rw [reaches a ha]
    exact ⟨fun ⟨_, reached, same⟩ => injective same ▸ reached, fun reached => ⟨b, reached, rfl⟩⟩

/-- Whether the input of a run on some inherited members is another one after a renaming. -/
structure SynthesisInput.Renames (f : DeclId → DeclId) (input input' : SynthesisInput)
    (inherited : List Inherited) : Prop where
  injective : Function.Injective f
  fixed : f .invalid = .invalid
  options : input'.options = input.options
  owner : input'.owner = f input.owner
  declared : List.Forall₂ (fun d d' => d'.id = f d.id ∧ d'.name = d.name ∧
    Signature.of? d' .identity = (Signature.of? d .identity).map (Signature.rename f))
    input.declared input'.declared
  compares : ∀ {name d m}, d ∈ input.declaredNamed name → m ∈ inherited →
    input.options.relation.holds input'.store (d.signature.returnType.rename f)
        (m.signature.returnType.rename f) =
      input.options.relation.holds input.store d.signature.returnType m.signature.returnType
  settles : ∀ {name bucket}, .settle name bucket ∈ input.events inherited →
    SettlesAlike f input.lookup input'.lookup bucket.ids
  callable : ∀ m ∈ inherited, m.declaration.isCallable = true

namespace SynthesisInput.Renames

variable {f : DeclId → DeclId} {input input' : SynthesisInput} {inherited : List Inherited}

/-- Whether a member is one of the inherited ones, and another one is the renamed member. -/
def Known (f : DeclId → DeclId) (inherited : List Inherited) (m m' : Inherited) : Prop :=
  m ∈ inherited ∧ m.Renames f m'

/-- Whether the members of a bucket are some of the inherited ones, and those of another one are
renamed. -/
structure KnownBucket (f : DeclId → DeclId) (inherited : List Inherited) (b b' : Bucket) :
    Prop where
  first : Known f inherited b.first b'.first
  others : List.Forall₂ (Known f inherited) b.others b'.others

theorem KnownBucket.members {b b' : Bucket} (h : KnownBucket f inherited b b') :
    List.Forall₂ (Known f inherited) b.members b'.members := .cons h.first h.others

/-- Whether an event is one of the run, and another one is the renamed event. -/
inductive KnownEvent (f : DeclId → DeclId) (input : SynthesisInput) (inherited : List Inherited) :
    SynthesisEvent → SynthesisEvent → Prop
  | check {name : String} {m m' : Inherited} {d : DeclaredMember} : Known f inherited m m' →
      d ∈ input.declaredNamed name →
      KnownEvent f input inherited (.check name m d) (.check name m' (d.rename f))
  | settle {name : String} {b b' : Bucket} : KnownBucket f inherited b b' →
      KnownEvent f input inherited (.settle name b) (.settle name b')

variable (h : input.Renames f input' inherited)
include h

/-! ## Events -/

theorem declaredNamed (name : String) :
    input'.declaredNamed name = (input.declaredNamed name).map (DeclaredMember.rename f) := by
  unfold SynthesisInput.declaredNamed
  rw [← forall₂_map_eq]
  refine List.rel_filterMap (fun {d d'} twin => ?_) h.declared
  obtain ⟨id, named, signed⟩ := twin
  rw [named, signed, id]
  split
  · cases Signature.of? d .identity with
    | none => exact .none
    | some signature => exact .some rfl
  · exact .none

theorem check {name : String} {d : DeclaredMember} (hd : d ∈ input.declaredNamed name)
    {m m' : Inherited} (known : Known f inherited m m') :
    input'.check (d.rename f) m' = input.check d m := by
  rw [SynthesisInput.check, SynthesisInput.check, known.2.signature, h.options]
  exact Signature.check_rename h.injective (h.compares hd known.1)

theorem isBound (name : String) {m m' : Inherited} (known : Known f inherited m m') :
    input'.isBound (input'.declaredNamed name) m' = input.isBound (input.declaredNamed name) m := by
  rw [h.declaredNamed, SynthesisInput.isBound, SynthesisInput.isBound, List.any_map]
  refine forall₂_any (List.forall₂_same.2 fun d hd => ?_)
  rw [Function.comp_apply, h.check hd known]

omit h in
theorem groupByName {inherited' : List Inherited}
    (related : List.Forall₂ (Known f inherited) inherited inherited') :
    OrderedMap.Related id (List.Forall₂ (Known f inherited)) (groupByName inherited)
      (groupByName inherited') := by
  refine List.rel_foldl (fun groups groups' same m m' known => ?_) .empty related
  have named : m'.declaration.name = m.declaration.name :=
    (congrArg Declaration.name known.2.declaration :)
  rw [named]
  refine same.alter Function.injective_id _ fun {group group'} found => ?_
  refine List.rel_append ?_ (.cons known .nil)
  cases found with
  | none => exact .nil
  | some members => exact members

theorem addToBuckets {buckets buckets' : List Bucket}
    (related : List.Forall₂ (KnownBucket f inherited) buckets buckets') {m m' : Inherited}
    (known : Known f inherited m m') :
    List.Forall₂ (KnownBucket f inherited) (addToBuckets m buckets) (addToBuckets m' buckets') := by
  induction related with
  | nil => exact .cons ⟨known, .nil⟩ .nil
  | @cons bucket bucket' rest rest' same others ih =>
    rw [ClassSymbols.addToBuckets, ClassSymbols.addToBuckets]
    have shapes : bucket'.first.signature.SameShape m'.signature ↔
        bucket.first.signature.SameShape m.signature := by
      rw [same.first.2.signature, known.2.signature, Signature.sameShape_rename h.injective]
    by_cases shape : bucket.first.signature.SameShape m.signature
    · rw [if_pos shape, if_pos (shapes.2 shape)]
      exact .cons ⟨same.first, List.rel_append same.others (.cons known .nil)⟩ others
    · rw [if_neg shape, if_neg fun shape' => shape (shapes.1 shape')]
      exact .cons same ih

theorem bucketByShape {members members' : List Inherited}
    (related : List.Forall₂ (Known f inherited) members members') :
    List.Forall₂ (KnownBucket f inherited) (bucketByShape members) (bucketByShape members') := by
  refine List.rel_foldl (P := List.Forall₂ (KnownBucket f inherited))
    (fun _ _ same m m' known => ?_)
    .nil related
  exact h.addToBuckets same known

/-- The events of a run with a renamed input. -/
theorem events {inherited' : List Inherited}
    (related : List.Forall₂ (Known f inherited) inherited inherited') :
    List.Forall₂ (KnownEvent f input inherited) (input.events inherited)
      (input'.events inherited') := by
  refine List.rel_flatMap (groupByName related) fun group group' same => ?_
  obtain ⟨name, members⟩ := group
  obtain ⟨name', members'⟩ := group'
  obtain ⟨e, same⟩ := same
  obtain rfl : name = name' := e.symm
  refine List.rel_append (List.rel_flatMap same fun m m' known => ?_) ?_
  · change List.Forall₂ _ _ ((input'.declaredNamed name).map _)
    rw [h.declaredNamed, List.map_map, List.forall₂_map_left_iff, List.forall₂_map_right_iff]
    exact List.forall₂_same.2 fun d hd => .check known hd
  · rw [List.forall₂_map_left_iff, List.forall₂_map_right_iff]
    refine (h.bucketByShape (List.rel_filter (fun m m' known => ?_) same)).imp fun _ _ => .settle
    change (!input.isBound (input.declaredNamed name) m) = true ↔
      (!input'.isBound (input'.declaredNamed name) m') = true
    rw [h.isBound name known]

/-! ## Buckets -/

omit h in
theorem ids {bucket bucket' : Bucket} (same : KnownBucket f inherited bucket bucket') :
    bucket'.members.map (·.id) = (bucket.members.map (·.id)).map f := by
  rw [← forall₂_map_eq, List.forall₂_map_left_iff, List.forall₂_map_right_iff]
  exact same.members.imp fun _ _ known => known.2.id

theorem unmodified {m m' : Inherited} (renames : m.Renames f m') :
    m'.unmodified = m.unmodified := by
  have signed :=
    Signature.of?_rename h.injective h.fixed (Substitution.Renames.identity (f := f))
      m.declaration.silent
  rw [← renames.declaration, Signature.of?_silent, Signature.of?_silent] at signed
  rw [Inherited.unmodified, Inherited.unmodified, signed, renames.signature]
  rw [Bool.eq_iff_iff, beq_iff_eq, beq_iff_eq, ← Option.map_some]
  exact (Option.map_injective fun _ _ => (Signature.rename_inj h.injective).1).eq_iff

section Settled

variable {bucket bucket' : Bucket} (same : KnownBucket f inherited bucket bucket')
  (alike : SettlesAlike f input.lookup input'.lookup bucket.ids)
include same alike

omit h in
theorem clusters : clusters (input'.closuresOf bucket') = clusters (input.closuresOf bucket) := by
  have ids : bucket'.ids = bucket.ids.map f := ids same
  rw [input'.closuresOf_eq, input.closuresOf_eq, ids, alike.clusters]

omit h in
theorem specificOf : Known f inherited (input.specificOf bucket) (input'.specificOf bucket') := by
  -- Which members reach each other is known of members of the bucket alone.
  have listed := (List.forall₂_and_left _ _).2 ⟨fun _ hm => hm, same.members⟩
  have found :=
    rel_find? (p := fun pair => inNoOtherClosure (input.closuresOf bucket) pair.2 pair.1.id)
    (q := fun pair => inNoOtherClosure (input'.closuresOf bucket') pair.2 pair.1.id) ?_
    (forall₂_zipIdx listed 0)
  · rw [SynthesisInput.specificOf, SynthesisInput.specificOf, Bucket.mostSpecific_eq,
      Bucket.mostSpecific_eq]
    generalize List.find? _ bucket.members.zipIdx = a, List.find? _ bucket'.members.zipIdx = a'
      at found
    cases found with
    | none => exact same.first
    | some known => exact known.1.2
  · rintro ⟨m, i⟩ ⟨m', _⟩ ⟨⟨hm, known⟩, rfl⟩
    simp only [inNoOtherClosure, SynthesisInput.closuresOf, List.zipIdx_map, List.all_map]
    refine forall₂_all ((forall₂_zipIdx listed 0).imp fun n n' known' => ?_)
    obtain ⟨n, j⟩ := n
    obtain ⟨n', _⟩ := n'
    obtain ⟨⟨hn, known'⟩, rfl⟩ := known'
    have contains : (input'.lookup.closure n'.id).contains m'.id =
        (input.lookup.closure n.id).contains m.id := by
      rw [Bool.eq_iff_iff, List.contains_iff_mem, List.contains_iff_mem,
        FiniteGraph.mem_closure_iff, FiniteGraph.mem_closure_iff, known.2.id, known'.2.id]
      exact alike.reaches _ (List.mem_map_of_mem hn) _ (List.mem_map_of_mem hm)
    simp only [Function.comp_apply, Prod.map, id, contains]

theorem originOf : SynthesisInput.originOf bucket' (input'.specificOf bucket') =
    SynthesisInput.originOf bucket (input.specificOf bucket) := by
  have others : bucket'.others.isEmpty = bucket.others.isEmpty := by
    rw [Bool.eq_iff_iff, List.isEmpty_iff_length_eq_zero, List.isEmpty_iff_length_eq_zero,
      same.others.length_eq]
  rw [SynthesisInput.originOf, SynthesisInput.originOf, others,
    h.unmodified (specificOf same alike).2]

theorem keeps : input'.keeps bucket' = input.keeps bucket := by
  rw [SynthesisInput.keeps, SynthesisInput.keeps, h.originOf same alike, h.options]

theorem fakeFor (next : DeclId) :
    input'.fakeFor (f next) bucket' = (input.fakeFor next bucket).rename f := by
  obtain ⟨known, renames⟩ := specificOf same alike
  have callable :=
    ((input.specificOf bucket).declaration.isCallable_silent).trans (h.callable _ known)
  rw [SynthesisInput.fakeFor, SynthesisInput.fakeFor,
    ← Declaration.fakeOverride_silent (input.specificOf bucket).declaration,
    Declaration.fakeOverride_rename h.injective renames.substitution _ callable,
    ← renames.declaration, Declaration.fakeOverride_silent, h.owner, ids same]

end Settled

/-! ## Additions -/

omit h in
theorem clashes (name : String) {bucket bucket' : Bucket}
    (same : KnownBucket f inherited bucket bucket') (others : List (List Nat)) :
    SynthesisInput.clashes name bucket' others =
      (SynthesisInput.clashes name bucket others).map (Conflict.rename f) := by
  unfold SynthesisInput.clashes
  rw [List.map_filterMap]
  refine List.filterMap_congr fun cluster _ => ?_
  cases cluster.head? with
  | none => rfl
  | some i =>
    have found := forall₂_getElem? same.members i
    simp only [Option.bind_some]
    generalize bucket.members[i]? = a, bucket'.members[i]? = a' at found
    cases found with
    | none => rfl
    | some known => simp [Conflict.rename, same.first.2.id, known.2.id]

theorem standIn (name : String) {bucket bucket' : Bucket}
    (same : KnownBucket f inherited bucket bucket')
    (alike : SettlesAlike f input.lookup input'.lookup bucket.ids) {next next' : DeclId}
    (fresh : input.keeps bucket = false → next' = f next) :
    input'.standIn name next' bucket' = (input.standIn name next bucket).rename f := by
  have specific := (specificOf same alike).2.id
  have origin := h.originOf same alike
  rw [SynthesisInput.standIn, SynthesisInput.standIn, h.keeps same alike]
  cases kept : input.keeps bucket with
  | true => simp [Additions.rename, EffectiveMember.rename, specific, origin]
  | false =>
    obtain rfl := fresh kept
    have pairs : bucket'.members.map (fun member => (f next, member.id)) =
        (bucket.members.map fun member => (next, member.id)).map (Prod.map f f) := by
      have ids := congrArg (List.map (Prod.mk (f next))) (ids same)
      simpa [List.map_map, Function.comp_def] using ids
    simp [Additions.rename, EffectiveMember.rename, origin, pairs, h.fakeFor same alike]

/-- What a renamed event adds, if the ids under which fake overrides are made are renamed. -/
theorem additions {event event' : SynthesisEvent} (listed : event ∈ input.events inherited)
    (same : KnownEvent f input inherited event event')
    {next next' : DeclId} (fresh : (input.additions next event).pending ≠ [] →
      (input'.additions next' event').pending ≠ [] → next' = f next) :
    input'.additions next' event' = (input.additions next event).rename f := by
  cases same with
  | @check name m m' d known hd =>
    rw [SynthesisInput.additions, SynthesisInput.additions, h.check hd known]
    cases input.check d m <;>
      simp [Additions.rename, DeclaredMember.rename, Conflict.rename, known.2.id]
  | @settle name bucket bucket' same =>
    have alike := h.settles listed
    -- Without two clusters, both buckets have a member that stands for them.
    have stands (one : input.additions next (.settle name bucket) = input.standIn name next bucket)
        (one' : input'.additions next' (.settle name bucket') = input'.standIn name next' bucket') :
        input'.additions next' (.settle name bucket') =
          (input.additions next (.settle name bucket)).rename f := by
      rw [one, one'] at fresh ⊢
      refine h.standIn name same alike fun kept => fresh ?_ ?_
      · simp [SynthesisInput.standIn, kept]
      · simp [SynthesisInput.standIn, h.keeps same alike, kept]
    have linked := clusters same alike
    cases found : ClassSymbols.clusters (input.closuresOf bucket) with
    | nil =>
      exact stands (by simp [SynthesisInput.additions, found])
        (by simp [SynthesisInput.additions, linked, found])
    | cons cluster rest =>
      cases rest with
      | nil =>
        exact stands (by simp [SynthesisInput.additions, found])
          (by simp [SynthesisInput.additions, linked, found])
      | cons other others =>
        simp [SynthesisInput.additions, linked, found, Additions.rename, clashes name same]

/-! ## Runs -/

omit h in
theorem exists_pending {event : SynthesisEvent} {next : DeclId}
    (made : (input.additions next event).pending ≠ []) (progress : Progress)
    (rest : List SynthesisEvent) :
    ∃ fake, (progress.addAll
      (input.logFrom next (event :: rest))).pending[progress.pending.length]? = some fake ∧
      fake.id = next := by
  have ids := input.map_id_pending_logFrom next (event :: rest)
  rw [Progress.pending_addAll, List.getElem?_append_right (Nat.le_refl _), Nat.sub_self]
  cases found : (input.logFrom next (event :: rest)).flatMap (·.pending) with
  | nil => exact absurd (List.flatMap_eq_nil_iff.1 found _ List.mem_cons_self) made
  | cons fake others =>
    rw [found, List.map_cons, List.length_cons, List.range'_succ, List.map_cons] at ids
    exact ⟨fake, rfl, (List.cons.inj ids).1⟩

/-- What renamed events add, if the fake overrides have renamed ids. -/
theorem addAll {events events' : List SynthesisEvent}
    (related : List.Forall₂ (KnownEvent f input inherited) events events')
    (listed : ∀ event ∈ events, event ∈ input.events inherited) {next next' : DeclId}
    {progress progress' : Progress} (same : progress.Renames f progress')
    (fresh : ∀ (i : Nat) (fake fake' : Declaration),
      (progress.addAll (input.logFrom next events)).pending[i]? = some fake →
      (progress'.addAll (input'.logFrom next' events')).pending[i]? = some fake' →
      fake'.id = f fake.id) :
    (progress.addAll (input.logFrom next events)).Renames f
      (progress'.addAll (input'.logFrom next' events')) := by
  induction related generalizing next next' progress progress' with
  | nil => exact same
  | @cons event event' rest rest' known others ih =>
    have added : input'.additions next' event' = (input.additions next event).rename f := by
      refine h.additions (listed event List.mem_cons_self) known fun made made' => ?_
      obtain ⟨fake, at_end, id⟩ := exists_pending made progress rest
      obtain ⟨fake', at_end', id'⟩ := exists_pending made' progress' rest'
      have length : progress'.pending.length = progress.pending.length := by
        rw [same.pending, List.length_map]
      rw [← id, ← id']
      exact fresh _ fake fake' at_end (length ▸ at_end')
    have first : (progress.add (input.additions next event)).Renames f
        (progress'.add (input'.additions next' event')) := added ▸ same.add h.injective _
    exact ih (fun event he => listed event (List.mem_cons_of_mem _ he)) first fresh

/-- The run with a renamed input finds what the run finds, renamed, if the fake overrides have
renamed ids. -/
theorem run {inherited' : List Inherited}
    (related : List.Forall₂ (fun m m' => m.Renames f m') inherited inherited')
    (fresh : ∀ (i : Nat) (fake fake' : Declaration), (input.run inherited).pending[i]? = some fake →
      (input'.run inherited').pending[i]? = some fake' → fake'.id = f fake.id) :
    (input.run inherited).Renames f (input'.run inherited') := by
  have known : List.Forall₂ (Known f inherited) inherited inherited' :=
    (List.forall₂_and_left _ _).2 ⟨fun _ hm => hm, related⟩
  have start : input.start.Renames f input'.start := by
    refine ⟨?_, rfl, rfl⟩
    have members : (input'.declared.map fun d => (d.name, (⟨d.id, .declared⟩ : EffectiveMember))) =
        (input.declared.map fun d => (d.name, (⟨d.id, .declared⟩ : EffectiveMember))).map
          fun member =>
          (member.1, member.2.rename f) := by
      rw [← forall₂_map_eq, List.forall₂_map_left_iff, List.forall₂_map_right_iff]
      refine h.declared.imp fun d d' twin => ?_
      rw [twin.1, twin.2.1]
      rfl
    rw [set_start, set_start, members]
    exact OverrideSet.Renames.pushAll ⟨h.owner, .empty, .empty⟩ _
  rw [run_eq, run_eq] at *
  exact h.addAll (h.events known) (fun _ he => he) start fresh

end SynthesisInput.Renames

end ClassSymbols
