import ClassSymbols.Proofs.Data.Sequence
import ClassSymbols.Proofs.Overrides.Bridges
import ClassSymbols.Proofs.Store.Filling

/-!
# Storing fake overrides

A synthesis gives out ids and stores nothing. What it makes is ready to be stored: the fake
overrides of the set, under new ids. Once they are stored, every member of the set and everything
that one of them overrides is stored.

## Main definitions

* `OverrideSet.fakes` — the fake overrides of a set.
* `OverrideSynthesis.Ready` — whether the declarations that were made for a set can be stored.
* `Store.Gains` — whether a store gains the fake overrides of a set, and nothing else.

## Main statements

* `ready_of_synthesizeWith` — what a synthesis makes is ready.
* `OverrideSynthesis.Ready.gains` — what storing it changes.
* `gains_or_intact` — a synthesis stores its fake overrides, or leaves the store as it was.
-/

namespace ClassSymbols

/-- The ids of the fake overrides of a set: the members that are not declared and override
something. -/
def OverrideSet.fakes (set : OverrideSet) : List DeclId :=
  (set.members.filter fun member =>
    member.origin ≠ .declared ∧ set.overriddenBy member.id ≠ []).map (·.id)

/-- Whether the declarations that were made for the set of a class are its fake overrides, can be
stored under ids below `next`, and are all that is missing. -/
structure OverrideSynthesis.Ready (synthesis : OverrideSynthesis) (owner : DeclId) (store : Store)
    (next : DeclId) : Prop where
  owner_eq : synthesis.set.owner = owner
  batch : store.Batch next synthesis.pending
  fakes : synthesis.set.fakes.Perm (synthesis.pending.map (·.id))
  made : ∀ fake ∈ synthesis.pending, fake.class? = none ∧ fake.origin = .fakeOverride ∧
    fake.container = some owner ∧ fake.overridden = synthesis.set.overriddenBy fake.id
  members : ∀ id ∈ synthesis.set.memberIds, (store.get? id).isSome ∨ id ∈ synthesis.set.fakes
  overridden : ∀ x, ∀ y ∈ synthesis.set.overriddenBy x, (store.get? y).isSome
  conflicting : ∀ conflict ∈ synthesis.conflicts,
    (store.get? conflict.first).isSome ∧ (store.get? conflict.second).isSome

/-- Whether one store is another one with the fake overrides of a set of the class `owner` under new
ids. -/
structure Store.Gains (store : Store) (owner : DeclId) (set : OverrideSet) (store' : Store) :
    Prop where
  classes : store'.classes = store.classes
  nodup : set.fakes.Nodup
  gained : ∀ id ∈ set.fakes, store.next.number ≤ id.number ∧ id.number < store'.next.number ∧
    store.get? id = none ∧ ∃ fake, store'.get? id = some fake ∧ fake.id = id ∧
      fake.origin = .fakeOverride ∧ fake.container = some owner ∧
      fake.overridden = set.overriddenBy id
  kept : ∀ id, id ∉ set.fakes → store'.get? id = store.get? id
  members : ∀ id ∈ set.memberIds, (store'.get? id).isSome
  overridden : ∀ x, ∀ y ∈ set.overriddenBy x, (store'.get? y).isSome

/-! ## Runs -/

theorem OverrideSet.owner_pushAll (set : OverrideSet) (members : List (String × EffectiveMember)) :
    (set.pushAll members).owner = set.owner := by
  unfold pushAll
  induction members generalizing set with
  | nil => rfl
  | cons member rest ih => exact (ih _).trans rfl

theorem OverrideSet.owner_recordAll (set : OverrideSet) (pairs : List (DeclId × DeclId)) :
    (set.recordAll pairs).owner = set.owner := by
  unfold recordAll
  induction pairs generalizing set with
  | nil => rfl
  | cons pair rest ih => exact (ih _).trans rfl

theorem Progress.owner_addAll (progress : Progress) (added : List Additions) :
    (progress.addAll added).set.owner = progress.set.owner := by
  unfold addAll
  induction added generalizing progress with
  | nil => rfl
  | cons a rest ih =>
    refine (ih _).trans ?_
    rw [add, OverrideSet.owner_recordAll, OverrideSet.owner_pushAll]

namespace SynthesisInput

variable {input : SynthesisInput} {declared : List DeclId} {supertypes : List SupertypeMembers}
  {inherited : List Inherited}

theorem owner_run : (input.run inherited).set.owner = input.owner := by
  rw [run_eq, Progress.owner_addAll, set_start, OverrideSet.owner_pushAll]

namespace Reads

variable (reads : input.Reads declared supertypes inherited)
include reads

theorem fakes_additions {stamp : DeclId × SynthesisEvent}
    (hs : stamp ∈ input.stamped input.store.next (input.events inherited)) :
    (((input.additions stamp.1 stamp.2).members.map Prod.snd).filter fun member =>
      member.origin ≠ .declared ∧ (input.run inherited).set.overriddenBy member.id ≠ []).map
        (·.id) =
      (input.additions stamp.1 stamp.2).pending.map (·.id) := by
  obtain ⟨next, _ | ⟨name, bucket⟩⟩ := stamp
  · simp [members_check, pending_check]
  by_cases joined : bucket.Joined input.lookup
  · rw [members_settle_of_joined joined]
    cases keeps : input.keeps bucket
    · have made : input.Materializes bucket := ⟨joined, keeps⟩
      have overridden := reads.overriddenBy_next hs made
      rw [pending_settle_of_materializes made]
      simp [representative, keeps, overridden, originOf_ne_declared, Bucket.ids, Bucket.members,
        fakeFor, Declaration.fakeOverride]
    · have unmade : ¬input.Materializes bucket := fun made => by simp [made.2] at keeps
      simp [pending_settle_of_not_materializes unmade, representative_of_keeps keeps,
        reads.overriddenBy_kept hs keeps]
  · have unmade : ¬input.Materializes bucket := fun made => joined made.1
    simp [members_settle_of_not_joined joined, pending_settle_of_not_materializes unmade]

/-- The fake overrides of the set of a run are those that the run made. -/
theorem fakes_run :
    (input.run inherited).set.fakes.Perm ((input.run inherited).pending.map (·.id)) := by
  have start : input.start.pending = [] := rfl
  have pending : (input.run inherited).pending =
      (input.stamped input.store.next (input.events inherited)).flatMap fun stamp =>
        (input.additions stamp.1 stamp.2).pending := by
    rw [run_eq, Progress.pending_addAll, start, logFrom, List.flatMap_map, List.nil_append]
  refine ((members_run.filter _).map _).trans (List.Perm.of_eq ?_)
  rw [List.filter_append, List.filter_eq_nil_iff.2 (by simp), List.nil_append, List.filter_flatMap,
    List.map_flatMap, pending, List.map_flatMap]
  exact List.flatMap_congr fun stamp hs => reads.fakes_additions hs

/-- What a run makes is ready to be stored. -/
theorem ready :
    (input.outcome inherited).Ready input.owner input.store (input.run inherited).next := by
  have offered {member : Inherited} (hm : member ∈ inherited) :
      (input.store.get? member.id).isSome :=
    Option.isSome_of_mem (reads.get?_eq hm)
  have fakes := reads.fakes_run
  refine ⟨owner_run, reads.batch_pending, fakes,
    fun fake hf => ?_, fun id hid => ?_, fun x y hy => ?_,
    fun conflict hc => ?_⟩
  · obtain ⟨next, name, bucket, settles, made, rfl⟩ := mem_pending_run_iff.1 hf
    refine ⟨?_, rfl, rfl, ?_⟩
    · exact Declaration.class?_eq_none_of_isCallable (reads.isCallable_of_mem_pending hf).1
    · exact (reads.overridden_fakeFor settles).trans (reads.overriddenBy_next settles made).symm
  · obtain ⟨member, hm, rfl⟩ := List.mem_map.1 hid
    rcases mem_members_run_iff.1 hm with ⟨d, hd, rfl⟩ | ⟨next, name, bucket, settles, joined, rfl⟩
    · exact .inl (Option.isSome_of_mem (reads.mem_declared_iff.1 hd).2)
    · cases keeps : input.keeps bucket
      · have listed :=
          List.mem_map_of_mem (f := Declaration.id) (settles.fakeFor_mem_pending ⟨joined, keeps⟩)
        rw [id_representative_of_not_keeps keeps]
        exact .inr (fakes.mem_iff.2 listed)
      · rw [representative_of_keeps keeps]
        exact .inl (offered (settles.mem_inherited settles.first_mem))
  · rcases mem_overriddenBy_run_iff.1 hy with ⟨member, hm, _, _, -, -, rfl⟩ |
      ⟨_, bucket, settles, -, hy⟩
    · exact offered hm
    · obtain ⟨member, hm, rfl⟩ := List.mem_map.1 hy
      exact offered (settles.mem_inherited hm)
  · rcases mem_conflicts_run_iff.1 hc with
      ⟨member, hm, declared, hd, _, -, rfl⟩ | ⟨_, _, bucket, settles, i, head, -, hi, rfl⟩
    · have signed := (reads.mem_declaredNamed_iff.1 hd).2.1
      obtain ⟨_, stored, -⟩ := Option.bind_eq_some_iff.1 signed
      exact ⟨Option.isSome_of_mem stored, offered hm⟩
    · have mem := List.mem_of_getElem? hi
      exact ⟨offered (settles.mem_inherited settles.first_mem), offered (settles.mem_inherited mem)⟩

end Reads

end SynthesisInput

/-! ## Stores -/

section Stores

variable {store store' : Store} {options : SynthesisOptions} {lookup : OverriddenLookup}
  {owner : DeclId} {declared : List DeclId} {supertypes : List SupertypeMembers}
  {synthesis : OverrideSynthesis}

/-- What a synthesis makes is ready to be stored. -/
theorem ready_of_synthesizeWith (wf : store.WellFormed)
    (ok : synthesizeWith options lookup owner declared supertypes store = .ok synthesis store') :
    synthesis.Ready owner store store'.next := by
  obtain ⟨declarations, inherited, reads, rfl, rfl⟩ := (synthesizeWith_eq_ok_iff wf).1 ok
  exact reads.ready

/-- What a synthesis makes takes part in overriding. -/
theorem isCallable_of_synthesizeWith (wf : store.WellFormed)
    (ok : synthesizeWith options lookup owner declared supertypes store = .ok synthesis store')
    {fake : Declaration} (hf : fake ∈ synthesis.pending) : fake.isCallable = true := by
  obtain ⟨declarations, inherited, reads, rfl, rfl⟩ := (synthesizeWith_eq_ok_iff wf).1 ok
  exact (reads.isCallable_of_mem_pending hf).1

theorem classes_insertAll {declarations : List Declaration}
    (plain : ∀ declaration ∈ declarations, declaration.class? = none) :
    (store.insertAll declarations).classes = store.classes := by
  induction declarations generalizing store with
  | nil => rfl
  | cons declaration rest ih =>
    refine (ih fun other ho => plain other (List.mem_cons_of_mem _ ho)).trans ?_
    have plain := plain declaration List.mem_cons_self
    obtain ⟨id, name, container, annotations, origin, kind⟩ := declaration
    cases kind <;> first | rfl | cases plain

/-- What is ready to be stored becomes the fake overrides of the set, and nothing else changes. -/
theorem OverrideSynthesis.Ready.gains (wf : store.WellFormed) {next : DeclId}
    (ready : synthesis.Ready owner store next) :
    store.Gains owner synthesis.set (store.receive next synthesis.pending) := by
  have listed {id : DeclId} : id ∈ synthesis.set.fakes ↔
      ∃ fake ∈ synthesis.pending, fake.id = id := by
    rw [ready.fakes.mem_iff, List.mem_map]
  have old {id : DeclId} (stored : (store.get? id).isSome) :
      (store.receive next synthesis.pending).get? id = store.get? id := by
    obtain ⟨declaration, stored⟩ := Option.isSome_iff_exists.1 stored
    exact ready.batch.get?_receive_of_old (wf.allocated stored)
  have gained {id : DeclId} (h : id ∈ synthesis.set.fakes) :
      ((store.receive next synthesis.pending).get? id).isSome := by
    obtain ⟨fake, hf, rfl⟩ := listed.1 h
    exact Option.isSome_of_mem (ready.batch.get?_receive_of_mem hf)
  refine ⟨classes_insertAll fun fake hf =>
    (ready.made fake hf).1, ?_, fun id hid => ?_, fun id hid => ?_,
    fun id hid => ?_, fun x y hy => ?_⟩
  · exact ready.fakes.nodup_iff.2 ready.batch.nodup
  · obtain ⟨fake, hf, rfl⟩ := listed.1 hid
    have new := ready.batch.new fake hf
    obtain ⟨-, origin, container, overridden⟩ := ready.made fake hf
    refine ⟨new, ?_, ?_, fake, ready.batch.get?_receive_of_mem hf, rfl, origin, container,
      overridden⟩
    · rw [Store.next_receive]
      exact ready.batch.allocated fake hf
    · cases stored : store.get? fake.id with
      | none => rfl
      | some declaration =>
        have := wf.allocated stored
        omega
  · exact Store.get?_insertAll_of_forall_ne fun fake hf e => hid (listed.2 ⟨fake, hf, e⟩)
  · rcases ready.members id hid with stored | fake
    · rw [old stored]
      exact stored
    · exact gained fake
  · have stored := ready.overridden x y hy
    rw [old stored]
    exact stored

/-- What is stored afterwards was stored before, or is a fake override of the set. -/
theorem OverrideSynthesis.Ready.get?_cases {next id : DeclId} {declaration : Declaration}
    (ready : synthesis.Ready owner store next)
    (stored : (store.receive next synthesis.pending).get? id = some declaration) :
    store.get? id = some declaration ∨ id ∈ synthesis.set.fakes ∧
      declaration.container = some owner := by
  rcases Store.get?_receive_cases stored with old | ⟨made, rfl⟩
  · exact .inl old
  · have mem := ready.fakes.mem_iff.2 (List.mem_map_of_mem (f := Declaration.id) made)
    exact .inr ⟨mem, (ready.made declaration made).2.2.1⟩

/-- A synthesis changes the next id alone. -/
theorem store_eq_of_synthesizeWith {r : Except SymbolError OverrideSynthesis}
    (h : Gives (synthesizeWith options lookup owner declared supertypes) store r store') :
    store' = { store with next := store'.next } := by
  cases r with
  | ok synthesis =>
    have ok := gives_ok_iff.1 h
    unfold synthesizeWith at ok
    split at ok
    · cases ok
    · split at ok <;> cases ok
      rfl
  | error e =>
    rw [synthesizeWith_eq_error (gives_error_iff.1 h)]

/-- Without another lookup, what the stored declarations say about overriding is looked up. -/
theorem synthesizePending_eq : synthesizePending options owner declared supertypes store =
    synthesizeWith options store.overriddenLookup owner declared supertypes store := rfl

theorem gives_synthesizePending_iff {r : Except SymbolError OverrideSynthesis} :
    Gives (synthesizePending options owner declared supertypes) store r store' ↔
      Gives (synthesizeWith options store.overriddenLookup owner declared supertypes) store r
        store' := by
  cases r <;> simp only [Gives, synthesizePending_eq]

/-- A synthesis that may store something fails, finds conflicts and stores nothing, or stores what
it has made. -/
theorem gives_synthesize_cases {r : Except SymbolError OverrideSynthesis}
    (h : Gives (synthesize options owner declared supertypes) store r store') :
    Gives (synthesizeWith options store.overriddenLookup owner declared supertypes) store r store' ∨
      ∃ result : OverrideSynthesis, result.hasConflicts = false ∧ r = .ok result := by
  rcases gives_bind_iff.1 h with ⟨e, rfl, failed⟩ | ⟨synthesis, s, made, answer⟩
  · exact .inl (gives_synthesizePending_iff.1 failed)
  · cases found : synthesis.hasConflicts
    · rw [found] at answer
      cases r with
      | ok result =>
        obtain ⟨rfl, -⟩ := EStateM.Result.ok.inj (gives_ok_iff.1 answer)
        exact .inr ⟨{ synthesis with pending := [] }, found, rfl⟩
      | error e => cases gives_error_iff.1 answer
    · rw [found] at answer
      obtain ⟨rfl, rfl⟩ := gives_pure_iff.1 answer
      exact .inl (gives_synthesizePending_iff.1 made)

/-- A synthesis that takes conflicts for failures stores what it has made, or fails and stores
nothing. -/
theorem gives_synthesizeStrict_cases {r : Except SymbolError OverrideSet}
    (h : Gives (synthesizeStrict options owner declared supertypes) store r store') :
    ∃ r₁ s, Gives (synthesizeWith options store.overriddenLookup owner declared supertypes) store r₁
      s ∧
      ((∃ e, r = .error e ∧ store' = s) ∨
        ∃ synthesis, r₁ = .ok synthesis ∧ synthesis.conflicts = [] ∧ r = .ok synthesis.set ∧
          store' = s.insertAll synthesis.pending) := by
  rcases gives_bind_iff.1 h with ⟨e, rfl, failed⟩ | ⟨synthesis, s, made, answer⟩
  · exact ⟨_, _, gives_synthesizePending_iff.1 failed, .inl ⟨e, rfl, rfl⟩⟩
  · refine ⟨_, s, gives_synthesizePending_iff.1 made, ?_⟩
    cases clean : synthesis.conflicts with
    | nil =>
      have stored : synthesis.intoSet s = .ok synthesis.set (s.insertAll synthesis.pending) := by
        simp [OverrideSynthesis.intoSet, clean, OverrideSynthesis.register]
      cases r with
      | ok set =>
        obtain ⟨rfl, rfl⟩ := EStateM.Result.ok.inj (stored.symm.trans (gives_ok_iff.1 answer))
        exact .inr ⟨synthesis, rfl, clean, rfl, rfl⟩
      | error e => cases stored.symm.trans (gives_error_iff.1 answer)
    | cons conflict rest =>
      have failed : synthesis.intoSet s = .error (synthesis.conflictError s) s := by
        simp [OverrideSynthesis.intoSet, clean]
      cases r with
      | ok set => cases failed.symm.trans (gives_ok_iff.1 answer)
      | error e =>
        obtain ⟨rfl, rfl⟩ := EStateM.Result.error.inj (failed.symm.trans (gives_error_iff.1 answer))
        exact .inl ⟨_, rfl, rfl⟩

end Stores

/-- A synthesis leaves the store as it was but for the next id, and so does one that may store
something if it fails or finds conflicts. If conflicts are failures and there is none, the store
gains the fake overrides of the set. -/
theorem gains_or_intact {store : Store} (wf : store.WellFormed) (options : SynthesisOptions)
    (lookup : OverriddenLookup) (owner : DeclId) (declared : List DeclId)
    (supertypes : List SupertypeMembers) :
    (∀ r store', Gives (synthesizeWith options lookup owner declared supertypes) store r store' →
      store' = { store with next := store'.next }) ∧
    (∀ r store', Gives (synthesize options owner declared supertypes) store r store' →
      (∀ synthesis, r = .ok synthesis → synthesis.hasConflicts = true) →
      store' = { store with next := store'.next }) ∧
    (∀ e store',
      Gives (synthesizeStrict options owner declared supertypes) store (.error e) store' →
      store' = { store with next := store'.next }) ∧
    (∀ set store',
      Gives (synthesizeStrict options owner declared supertypes) store (.ok set) store' →
      store.Gains owner set store') := by
  refine ⟨fun r store' h => store_eq_of_synthesizeWith h,
    fun r store' h conflicting => ?_, fun e store' h => ?_,
    fun set store' h => ?_⟩
  · rcases gives_synthesize_cases h with made | ⟨result, clean, rfl⟩
    · exact store_eq_of_synthesizeWith made
    · simp [clean] at conflicting
  · obtain ⟨r, s, made, ⟨_, -, rfl⟩ | ⟨_, -, -, contra, -⟩⟩ := gives_synthesizeStrict_cases h
    · exact store_eq_of_synthesizeWith made
    · cases contra
  · obtain ⟨r, s, made, ⟨_, contra, -⟩ | ⟨synthesis, rfl, -, e, rfl⟩⟩ :=
      gives_synthesizeStrict_cases h
    · cases contra
    · obtain rfl := Except.ok.inj e
      have gains := (ready_of_synthesizeWith wf (gives_ok_iff.1 made)).gains wf
      rw [store_eq_of_synthesizeWith made]
      exact gains

/-- A class that extends one of two classes with a function `f` each has a fake override, which is
stored. One that extends both of them has conflicting members. -/
theorem gains_or_intact_of_two_functions :
    let store := Store.empty.receive ⟨3⟩
      [.plainFunction ⟨1⟩ ⟨7⟩ .nullableAny, .plainFunction ⟨2⟩ ⟨8⟩ .nullableAny]
    let first : SupertypeMembers := ⟨.nullableAny, ⟨7⟩, [⟨1⟩]⟩
    let second : SupertypeMembers := ⟨.nullableAny, ⟨8⟩, [⟨2⟩]⟩
    (∃ set store', synthesizeStrict {} ⟨9⟩ [] [first] store = .ok set store' ∧ set.fakes = [⟨3⟩] ∧
      store.Gains ⟨9⟩ set store') ∧
    ∃ e store', synthesizeStrict {} ⟨9⟩ [] [first, second] store = .error e store' ∧
      store' = { store with next := store'.next } := by
  intro store first second
  have wf : store.WellFormed :=
    (Store.sound_receive_empty (by decide) (by decide) (by decide)).toWellFormed
  have intact (supertypes : List SupertypeMembers) :=
    gains_or_intact wf {} store.overriddenLookup ⟨9⟩ [] supertypes
  constructor
  · have computed : (match synthesizeStrict {} ⟨9⟩ [] [first] store with
        | .ok set _ => decide (set.fakes = [⟨3⟩])
        | .error _ _ => false) = true := by decide +kernel
    cases ok : synthesizeStrict {} ⟨9⟩ [] [first] store with
    | error e store' => simp [ok] at computed
    | ok set store' =>
      rw [ok] at computed
      exact ⟨set, store', rfl, of_decide_eq_true computed, (intact [first]).2.2.2 set store' ok⟩
  · have computed : (match synthesizeStrict {} ⟨9⟩ [] [first, second] store with
        | .ok _ _ => false
        | .error _ _ => true) = true := by decide +kernel
    cases failed : synthesizeStrict {} ⟨9⟩ [] [first, second] store with
    | ok set store' => simp [failed] at computed
    | error e store' => exact ⟨e, store', rfl, (intact [first, second]).2.2.1 e store' failed⟩

end ClassSymbols
