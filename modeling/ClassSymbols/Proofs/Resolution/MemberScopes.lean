import ClassSymbols.Proofs.Overrides.Listing
import ClassSymbols.Proofs.Resolution.Answers

/-!
# Scopes of effective members

A result groups its members by name, and a scope reads their declarations into one list. What a
scope finds by name is what the group of the name has, since each member is stored under the name of
its group: a member that is not made by the synthesis has the name already, and a fake override has
that of the member it is copied from. Questions that are asked in between may read members of
classes and store fake overrides, but no member is renamed.

## Main definitions

* `Store.declarationsOf` — the declarations that are stored for members.
* `OverrideSet.Named` — whether the members of a set are stored under the names of their groups.
* `Workspace.Named` — whether all results that are kept have such sets.
* `MemberScope.Shows` — whether a scope finds what is in the groups of a set.

## Main statements

* `named_of_synthesizeWith` — the members of a synthesis are named as their groups.
* `Workspace.Named.afterAll` — they stay so, whatever is asked.
* `MemberScope.named_eq` — a scope finds by name what is in the group of the name.
* `scopes_agree` — the scope of a class shows its effective members.
-/

namespace ClassSymbols

/-! ## Declarations of members -/

def Declaration.isFunction (declaration : Declaration) : Bool :=
  match declaration.kind with
  | .function _ => true
  | _ => false

def Store.declarationsOf (store : Store) (members : List EffectiveMember) : List Declaration :=
  members.filterMap fun member => store.get? member.id

def OverrideSet.classesNamed (set : OverrideSet) (store : Store) (name : String) :
    List Declaration :=
  (store.declarationsOf (set.group name)).filter (·.class?.isSome)

/-- Whether the members of a set are stored, each under the name of its group. -/
def OverrideSet.Named (set : OverrideSet) (store : Store) : Prop :=
  ∀ name, ∀ member ∈ set.group name,
    ∃ declaration, store.get? member.id = some declaration ∧ declaration.name = name

theorem OverrideSet.Named.mono {s t : Store} (grows : s.Grows t) {set : OverrideSet}
    (named : set.Named s) :
    set.Named t := by
  intro name member hm
  obtain ⟨declaration, stored, e⟩ := named name member hm
  obtain ⟨declaration', stored', same⟩ := grows.kept stored
  exact ⟨declaration', stored', (Declaration.congr_unread Declaration.name_unread same).trans e⟩

/-- Whether a scope finds what is stored for the groups of a set. -/
structure MemberScope.Shows (scope : MemberScope) (store : Store) (set : OverrideSet) : Prop where
  named : set.Named store
  functions :
    ∀ name, scope.functions name = (store.declarationsOf (set.group name)).filter (·.isFunction)
  properties : ∀ name, scope.properties name =
    (store.declarationsOf (set.group name)).filter (·.property?.isSome)
  types : ∀ name,
    (set.classesNamed store name = [] ∧ scope.findType name = .ok none) ∨
    (∃ declaration, set.classesNamed store name = [declaration] ∧
      scope.findType name = .ok (some declaration)) ∨
    (2 ≤ (set.classesNamed store name).length ∧
      scope.findType name = .error (.ambiguousLookup name (set.classesNamed store name).length))
  filtered : ∀ kinds names, scope.filtered kinds names =
    (store.declarationsOf set.members).filter fun declaration =>
      kinds.accepts declaration && names declaration.name

/-! ## Names of members -/

/-- The members of a run are stored under the names of their groups once its fake overrides are
stored. -/
theorem SynthesisInput.Reads.named {input : SynthesisInput} {declared : List DeclId}
    {supertypes : List SupertypeMembers} {inherited : List Inherited}
    (reads : input.Reads declared supertypes inherited) :
    (input.run inherited).set.Named
      (input.store.receive (input.run inherited).next (input.run inherited).pending) := by
  intro name member hm
  have batch := reads.batch_pending
  have old {id : DeclId} {declaration : Declaration}
    (stored : input.store.get? id = some declaration) :
      (input.store.receive (input.run inherited).next (input.run inherited).pending).get? id =
        some declaration :=
    (batch.get?_receive_of_old (reads.allocated stored)).trans stored
  rw [group_run, reads.toCollects.group_start, List.mem_append] at hm
  rcases hm with declares | stands
  · obtain ⟨id, hid, rfl⟩ := List.mem_map.1 declares
    obtain ⟨declaration, stored, named⟩ := (Option.any_eq_true _ _).1 (List.mem_filter.1 hid).2
    exact ⟨declaration, old stored, of_decide_eq_true named⟩
  · obtain ⟨next, bucket, settles, joined, rfl⟩ := mem_standInsNamed_iff.1 stands
    obtain ⟨hm, named, -⟩ := settles.mem_iff.1 (input.specificOf_mem bucket)
    cases keeps : input.keeps bucket
    · refine ⟨input.fakeFor next bucket, ?_, named⟩
      rw [id_representative_of_not_keeps keeps]
      exact batch.get?_receive_of_mem (settles.fakeFor_mem_pending ⟨joined, keeps⟩)
    · rw [specificOf_of_keeps keeps] at hm named
      have stored := reads.get?_eq hm
      rw [representative_of_keeps keeps]
      exact ⟨_, old stored, named⟩

/-- The members of a synthesis are stored under the names of their groups once its fake overrides
are stored. -/
theorem named_of_synthesizeWith {store store' : Store} {options : SynthesisOptions}
    {lookup : OverriddenLookup} {owner : DeclId} {declared : List DeclId}
    {supertypes : List SupertypeMembers} {synthesis : OverrideSynthesis} (wf : store.WellFormed)
    (ok : synthesizeWith options lookup owner declared supertypes store = .ok synthesis store') :
    synthesis.set.Named (store.receive store'.next synthesis.pending) := by
  obtain ⟨declarations, inherited, reads, rfl, rfl⟩ := (synthesizeWith_eq_ok_iff wf).1 ok
  exact reads.named

namespace Workspace

/-- Whether the members of all results that are kept are stored under the names of their groups. -/
structure Named (w : Workspace) : Prop where
  wellFormed : w.store.WellFormed
  results : ∀ {key result}, w.effective.cache.get? key = some result → result.set.Named w.store

namespace Named

variable {w w' : Workspace} (h : w.Named)
include h

theorem read {id : DeclId} {r : Except SymbolError (List DeclId)} {store : Store}
    (asked : Gives (classMembers id) w.store r store) : ({ w with store } : Workspace).Named where
  wellFormed := (classMembers_wellFormed h.wellFormed asked).1
  results kept := (h.results kept).mono (grows_of_classMembers h.wellFormed asked)

/-- A result that is computed is kept with members that are named as their groups. -/
theorem computeFrom {id : DeclId} {data : ClassData} {members : List SupertypeMembers}
    {r : Except SymbolError OverrideSynthesis} (made : Gives (computeFrom id data members) w r w') :
    w'.Named := by
  rcases gives_computeFrom_cases made with
    ⟨_, _, store, -, asked, rfl⟩ | ⟨declared, store, synthesis, after, asked, run, -, rfl⟩
  · exact h.read asked
  have read := h.read asked
  have ready := ready_of_synthesizeWith read.wellFormed run
  have stored : after.insertAll synthesis.pending = store.receive after.next synthesis.pending := by
    rw [store_eq_of_synthesizeWith (gives_ok_iff.2 run)]
    rfl
  have named := named_of_synthesizeWith read.wellFormed run
  rw [stored]
  refine ⟨read.wellFormed.receive ready.batch, fun {key result} kept => ?_⟩
  have kept : (w.effective.cache.insert (id, data.supertypes) { synthesis with pending := [] }).get?
    key = some result :=
    kept
  rw [OrderedMap.get?_insert] at kept
  split at kept
  · obtain rfl := Option.some.inj kept
    exact named
  · exact (read.results kept).mono
      (ready.batch.grows read.wellFormed fun _ fake hf => (ready.made fake hf).1)

theorem ask {query : ClassQuery} {r : Except SymbolError Answer} (gives : Gives query.ask w r w') :
    w'.Named := by
  rcases query.gives_ask_cases gives with ⟨_, store, asked, rfl⟩ | ⟨_, resolved⟩
  · exact h.read asked
  · exact (resolutionRule_of_preserved fun {_ _ _ _ _ _} named =>
      named.computeFrom).effectiveSynthesis resolved h

theorem afterAll (queries : List ClassQuery) : (w.afterAll queries).Named := by
  induction queries generalizing w with
  | nil => exact h
  | cons query rest ih =>
    obtain ⟨r, gives⟩ := w.exists_gives_after query.ask
    exact ih (h.ask gives)

end Named

end Workspace

/-! ## What a scope finds -/

section Scopes

variable {store : Store} {set : OverrideSet} {scope : MemberScope}

/-- The declarations of a name are those of the group of the name. -/
theorem OverrideSet.Named.filter_name (named : set.Named store) (name : String) :
    (store.declarationsOf set.members).filter (·.name = name) =
      store.declarationsOf (set.group name) := by
  have own : ∀ entry ∈ set.groups.entries, ∀ declaration ∈ store.declarationsOf entry.2,
      decide (declaration.name = name) = decide (entry.1 = name) := by
    rintro ⟨key, members⟩ listed declaration hd
    have group : set.group key = members := by
      rw [OverrideSet.group, set.groups.mem_entries_iff.1 listed, Option.getD_some]
    obtain ⟨member, hm, stored⟩ := List.mem_filterMap.1 hd
    obtain ⟨_, stored', e⟩ := named key member (group ▸ hm)
    rw [← e, Option.some.inj (stored.symm.trans stored')]
  have split : store.declarationsOf set.members =
      set.groups.entries.flatMap fun entry => store.declarationsOf entry.2 := by
    rw [OverrideSet.members, OrderedMap.values, ← List.flatMap_def, Store.declarationsOf,
      List.filterMap_flatMap]
    rfl
  rw [split, filter_flatMap_eq own, OrderedMap.filter_entries, OverrideSet.group]
  cases set.groups.get? name <;> simp [Store.declarationsOf]

variable (named : set.Named store) (all : scope.declarations = store.declarationsOf set.members)
include named all

/-- A scope finds by name what is in the group of the name. -/
theorem MemberScope.named_eq (name : String) {isOfKind : DeclKind → Bool} (p : Declaration → Bool)
    (same : ∀ declaration, isOfKind declaration.kind = p declaration) :
    scope.named name isOfKind = (store.declarationsOf (set.group name)).filter p := by
  rw [MemberScope.named, all, ← named.filter_name, List.filter_filter]
  refine List.filter_congr fun declaration _ => ?_
  rw [same, Bool.and_comm]
  rfl

/-- The scope of a set whose members are named as their groups shows the set. -/
theorem MemberScope.shows : scope.Shows store set := by
  refine ⟨named, fun name => ?functions,
    fun name => ?properties, fun name => ?types, fun kinds names => ?filtered⟩
  case functions =>
    refine named_eq named all name (·.isFunction) fun declaration => ?_
    cases kind : declaration.kind <;> simp [Declaration.isFunction, kind]
  case properties =>
    refine named_eq named all name (·.property?.isSome) fun declaration => ?_
    cases kind : declaration.kind <;> simp [Declaration.property?, kind]
  case types =>
    unfold findType OverrideSet.classesNamed
    dsimp only
    rw [named_eq named all name (·.class?.isSome)]
    · generalize (store.declarationsOf (set.group name)).filter (·.class?.isSome) = classes
      rcases classes with _ | ⟨declaration, _ | ⟨other, rest⟩⟩
      · exact .inl ⟨rfl, rfl⟩
      · exact .inr (.inl ⟨declaration, rfl, rfl⟩)
      · exact .inr (.inr ⟨by simp, rfl⟩)
    · intro declaration
      cases kind : declaration.kind <;> simp [Declaration.class?, kind]
  case filtered => rw [MemberScope.filtered, all]

end Scopes

/-- A committed result whose members are named as their groups has a scope, which shows its set. -/
theorem OverrideSynthesis.Committed.exists_scope {store : Store} {result : OverrideSynthesis}
    {id : DeclId} {supertypes : List Ty} (committed : result.Committed store id supertypes)
    (named : result.set.Named store) :
    ∃ scope, MemberScope.ofSet store result.set = .ok scope ∧ scope.Shows store result.set := by
  refine ⟨_, MemberScope.ofIds_eq committed.members, MemberScope.shows named ?_⟩
  rw [OverrideSet.memberIds, List.filterMap_map]
  rfl

/-- Let questions be asked on a store without fake overrides. Then a class has a scope if and only
if it has effective members. The scope shows them: it finds by name the functions, the properties
and the only class of the group of the name, or how many classes there are, and it lists the members
that pass a filter. Whatever is asked after that, there is a scope that shows them. -/
theorem scopes_agree {store : Store} (wf : store.WellFormed)
    (plain : ∀ id declaration, store.get? id = some declaration →
      declaration.origin ≠ .fakeOverride)
    (options : SynthesisOptions) (queries : List ClassQuery) (id : DeclId) :
    let w := (Workspace.initial store options).afterAll queries
    ((∃ scope w', effectiveScope id w = .ok scope w') ↔
      ∃ set w', effectiveMembers id w = .ok set w') ∧
    ∀ set w', effectiveMembers id w = .ok set w' →
      (∃ scope, effectiveScope id w = .ok scope w' ∧ scope.Shows w'.store set) ∧
      ∀ more, ∃ scope, effectiveScope id (w'.afterAll more) = .ok scope (w'.afterAll more) ∧
        scope.Shows (w'.afterAll more).store set := by
  intro w
  have initial : (Workspace.initial store options).Named := ⟨wf, fun kept => by cases kept⟩
  have named : w.Named := initial.afterAll queries
  have committed : w.Committed :=
    ((Workspace.committed_initial wf plain options).afterAll queries).1
  obtain ⟨r, w₁, resolved⟩ := exists_gives (effectiveSynthesis id) w
  have members := gives_effectiveMembers resolved
  have scope := gives_effectiveScope resolved
  cases checked : r >>= (·.checked w₁.store) with
  | error e =>
    rw [checked] at members scope
    have none : ∀ set w', effectiveMembers id w ≠ .ok set w' := fun set w' ok => by
      cases (gives_error_iff.1 members).symm.trans ok
    refine ⟨⟨fun ⟨found, w', ok⟩ => ?_, fun ⟨set, w', ok⟩ => absurd ok (none set w')⟩,
      fun set w' ok => absurd ok (none set w')⟩
    cases (gives_error_iff.1 scope).symm.trans ok
  | ok set =>
    rw [checked] at members
    obtain ⟨result, rfl, checked⟩ := Except.bind_eq_ok_iff.1 checked
    obtain ⟨clean, rfl⟩ := OverrideSynthesis.checked_eq_ok_iff.1 checked
    have resolution := committed.resolution resolved
    have named' : w₁.Named :=
      named.ask ((ClassQuery.synthesis id).gives_ask (fun _ e => by cases e) resolved)
    obtain ⟨supertypes, kept⟩ := resolution.answered result rfl
    obtain ⟨scope, found, shows⟩ :=
      (resolution.committed.results kept).exists_scope (named'.results kept)
    have gives := gives_ok_iff.1 (gives_effectiveScope_of_clean resolved clean found)
    refine ⟨⟨fun _ => ⟨_, _, gives_ok_iff.1 members⟩, fun _ => ⟨_, _, gives⟩⟩, fun set w' ok => ?_⟩
    obtain ⟨rfl, rfl⟩ := EStateM.Result.ok.inj ((gives_ok_iff.1 members).symm.trans ok)
    refine ⟨⟨scope, gives, shows⟩, fun more => ?_⟩
    -- the result is kept, so it is the answer from then on
    obtain ⟨committed', advances⟩ := resolution.committed.afterAll more
    have kept' := advances.kept kept
    obtain ⟨scope', found', shows'⟩ :=
      (committed'.results kept').exists_scope ((named'.afterAll more).results kept')
    obtain ⟨data, isClass, rfl⟩ := (committed'.results kept').isClass
    have again :=
      gives_effectiveScope_of_clean (gives_effectiveSynthesis_of_kept isClass kept') clean found'
    exact ⟨scope', gives_ok_iff.1 again, shows'⟩

/-- The class `B` declares two classes `N` and inherits the function `f` of `A`, for which there is
a fake override. -/
theorem scopes_agree_of_two_classes :
    let declarations := [.plainClass ⟨1⟩ "A" [] [⟨3⟩], .plainClass ⟨2⟩ "B" ["A"] [⟨4⟩, ⟨5⟩],
      .plainFunction ⟨3⟩ ⟨1⟩ .nullableAny, .plainClass ⟨4⟩ "N" [] [], .plainClass ⟨5⟩ "N" [] []]
    let store := Store.empty.receive ⟨6⟩ declarations
    let w := (Workspace.initial store {}).afterAll [.declared ⟨2⟩, .synthesis ⟨1⟩]
    ∃ set w' scope, effectiveMembers ⟨2⟩ w = .ok set w' ∧ set.memberIds = [⟨4⟩, ⟨5⟩, ⟨6⟩] ∧
      effectiveScope ⟨2⟩ w = .ok scope w' ∧ scope.Shows w'.store set := by
  intro declarations store w
  have wf : store.WellFormed :=
    (Store.sound_receive_empty (by decide) (by decide) (by decide)).toWellFormed
  have sources : ∀ declaration ∈ declarations, declaration.origin ≠ .fakeOverride := by decide
  have computed : (match effectiveMembers ⟨2⟩ w with
      | .ok set _ => decide (set.memberIds = [⟨4⟩, ⟨5⟩, ⟨6⟩])
      | .error _ _ => false) = true := by decide +kernel
  cases ok : effectiveMembers ⟨2⟩ w with
  | error e w' => simp [ok] at computed
  | ok set w' =>
    rw [ok] at computed
    obtain ⟨⟨scope, gives, shows⟩, -⟩ :=
      (scopes_agree wf (fun _ _ stored => sources _ (Store.mem_of_get?_receive_empty stored).1) {}
        [.declared ⟨2⟩, .synthesis ⟨1⟩] ⟨2⟩).2 set w' ok
    exact ⟨set, w', scope, rfl, of_decide_eq_true computed, gives, shows⟩

end ClassSymbols
