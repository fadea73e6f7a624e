import ClassSymbols.Proofs.Data.Grouping
import ClassSymbols.Proofs.Overrides.Storing
import ClassSymbols.Proofs.Resolution.Queries

/-!
# Committed results

A result is kept together with its fake overrides. So what a result that is kept speaks of is
stored, and the fake overrides in a store are those of the results that are kept. A resolution may
keep results of supertypes and then fail; nothing is kept or stored for the class itself in that
case.

## Main definitions

* `OverrideSynthesis.Committed` — whether all that a result of a class speaks of is stored.
* `Workspace.Committed` — whether the fake overrides in a store are those of the results.
* `Workspace.Spares` — whether nothing was added for a class.
* `Workspace.Advances` — whether a workspace was reached from another one, without additions for
  some classes.

## Main statements

* `Workspace.Committed.read`, `Workspace.Committed.withResult` — reading members and keeping a
  result.
* `Workspace.Committed.resolution` — what a query leaves.
-/

namespace ClassSymbols

/-- Whether a fake override in the class `owner` is stored under an id. -/
def Store.FakeIn (store : Store) (owner id : DeclId) : Prop :=
  ∃ fake, store.get? id = some fake ∧ fake.origin = .fakeOverride ∧ fake.container = some owner

theorem Store.FakeIn.mono {s t : Store} (grows : s.Grows t) {owner id : DeclId}
    (h : s.FakeIn owner id) :
    t.FakeIn owner id := by
  obtain ⟨fake, stored, origin, container⟩ := h
  obtain ⟨fake', stored', same⟩ := grows.kept stored
  refine ⟨fake', stored', ?_, ?_⟩
  · exact (Declaration.congr_unread Declaration.origin_unread same).trans origin
  · exact (Declaration.congr_unread Declaration.container_unread same).trans container

theorem Store.Grows.isSome {s t : Store} (grows : s.Grows t) {id : DeclId}
    (h : (s.get? id).isSome) :
    (t.get? id).isSome := by
  obtain ⟨declaration, stored⟩ := Option.isSome_iff_exists.1 h
  obtain ⟨declaration', stored', -⟩ := grows.kept stored
  exact Option.isSome_of_mem stored'

/-! ## Results -/

/-- Whether nothing of a result of the class `id` is still to be stored: its members, what they
override, the members in conflict, and the fake overrides, which are in the class. -/
structure OverrideSynthesis.Committed (result : OverrideSynthesis) (store : Store) (id : DeclId)
    (supertypes : List Ty) : Prop where
  pending : result.pending = []
  owner : result.set.owner = id
  isClass : ∃ data, store.IsClass id data ∧ data.supertypes = supertypes
  listed : ∃ members, store.members? id = some members
  members : ∀ x ∈ result.set.memberIds, (store.get? x).isSome
  overridden : ∀ x, ∀ y ∈ result.set.overriddenBy x, (store.get? y).isSome
  conflicting : ∀ conflict ∈ result.conflicts,
    (store.get? conflict.first).isSome ∧ (store.get? conflict.second).isSome
  fakes : ∀ x ∈ result.set.fakes, store.FakeIn id x

theorem OverrideSynthesis.Committed.mono {s t : Store} (grows : s.Grows t)
    {result : OverrideSynthesis} {id : DeclId} {supertypes : List Ty}
    (h : result.Committed s id supertypes) :
    result.Committed t id supertypes where
  pending := h.pending
  owner := h.owner
  isClass := by
    obtain ⟨data, stored, same⟩ := h.isClass
    obtain ⟨data', stored', unread⟩ := grows.isClass stored
    exact ⟨data', stored', (ClassData.supertypes_eq unread).trans same⟩
  listed := h.listed.imp fun _ known => grows.listed known
  members x hx := grows.isSome (h.members x hx)
  overridden x y hy := grows.isSome (h.overridden x y hy)
  conflicting c hc := (h.conflicting c hc).imp grows.isSome grows.isSome
  fakes x hx := (h.fakes x hx).mono grows

namespace Workspace

def fakes (w : Workspace) : List DeclId := w.effective.cache.values.flatMap (·.set.fakes)

theorem mem_fakes_iff {w : Workspace} {x : DeclId} : x ∈ w.fakes ↔
    ∃ id supertypes result, w.effective.cache.get? (id, supertypes) = some result ∧
      x ∈ result.set.fakes := by
  simp only [fakes, OrderedMap.values, List.mem_flatMap, List.mem_map, ← OrderedMap.mem_entries_iff]
  constructor
  · rintro ⟨_, ⟨⟨⟨id, supertypes⟩, result⟩, kept, rfl⟩, hx⟩
    exact ⟨id, supertypes, result, kept, hx⟩
  · rintro ⟨id, supertypes, result, kept, hx⟩
    exact ⟨result, ⟨_, kept, rfl⟩, hx⟩

/-- Whether the results are committed, and each fake override in the store belongs to one of
them. -/
structure Committed (w : Workspace) : Prop where
  wellFormed : w.store.WellFormed
  results : ∀ {id supertypes result}, w.effective.cache.get? (id, supertypes) = some result →
    result.Committed w.store id supertypes
  nodup : w.fakes.Nodup
  registered : ∀ {x fake}, w.store.get? x = some fake → fake.origin = .fakeOverride → x ∈ w.fakes

/-- Whether no result and no fake override of the class `id` was added. -/
structure Spares (w w' : Workspace) (id : DeclId) : Prop where
  results : ∀ {supertypes result}, w'.effective.cache.get? (id, supertypes) = some result →
    w.effective.cache.get? (id, supertypes) = some result
  fakes : ∀ {x}, w'.store.FakeIn id x → w.store.FakeIn id x

/-- Whether a workspace was reached from another one. No result was lost, and nothing was added for
some classes. -/
structure Advances (w w' : Workspace) (spared : List DeclId) : Prop where
  store : w.store.Grows w'.store
  kept : ∀ {key result}, w.effective.cache.get? key = some result →
    w'.effective.cache.get? key = some result
  spares : ∀ id ∈ spared, w.Spares w' id

variable {w w' w'' : Workspace} {spared : List DeclId} {id : DeclId}

theorem Spares.refl (w : Workspace) (id : DeclId) : w.Spares w id := ⟨fun h => h, fun h => h⟩

theorem Spares.trans (h : w.Spares w' id) (g : w'.Spares w'' id) : w.Spares w'' id :=
  ⟨fun kept => h.results (g.results kept), fun fake => h.fakes (g.fakes fake)⟩

theorem Advances.refl (w : Workspace) (spared : List DeclId) : w.Advances w spared :=
  ⟨.refl _, fun h => h, fun id _ => .refl w id⟩

theorem Advances.trans (h : w.Advances w' spared) (g : w'.Advances w'' spared) :
    w.Advances w'' spared :=
  ⟨h.store.trans g.store, fun kept => g.kept (h.kept kept),
    fun id hi => (h.spares id hi).trans (g.spares id hi)⟩

theorem Advances.of_cons (h : w.Advances w' (id :: spared)) : w.Advances w' spared :=
  ⟨h.store, h.kept, fun other ho => h.spares other (List.mem_cons_of_mem _ ho)⟩

namespace Committed

variable (h : w.Committed)
include h

/-- The fake overrides in the store are those of the results. -/
theorem mem_fakes_iff {x : DeclId} :
    x ∈ w.fakes ↔ ∃ fake, w.store.get? x = some fake ∧ fake.origin = .fakeOverride := by
  constructor
  · intro hx
    obtain ⟨id, supertypes, result, kept, hx⟩ := Workspace.mem_fakes_iff.1 hx
    obtain ⟨fake, stored, origin, -⟩ := (h.results kept).fakes x hx
    exact ⟨fake, stored, origin⟩
  · rintro ⟨fake, stored, origin⟩
    exact h.registered stored origin

/-! ## Reading members -/

/-- Asking for the members of a class adds no result and no fake override. -/
theorem read {asked : DeclId} {r : Except SymbolError (List DeclId)} {store : Store}
    (gives : Gives (classMembers asked) w.store r store) (spared : List DeclId) :
    ({ w with store } : Workspace).Committed ∧ w.Advances { w with store } spared := by
  obtain ⟨wf, -⟩ := classMembers_wellFormed h.wellFormed gives
  have grows := grows_of_classMembers h.wellFormed gives
  have old {x : DeclId} {fake : Declaration} (stored : store.get? x = some fake)
      (origin : fake.origin = .fakeOverride) :
      ∃ fake', w.store.get? x = some fake' ∧ fake.unread = fake'.unread := by
    rcases classMembers_origin h.wellFormed gives stored with read | before
    · rw [origin] at read
      cases read
    · exact before
  refine ⟨⟨wf, fun kept => (h.results kept).mono grows, h.nodup, fun stored origin => ?_⟩,
    grows, fun kept => kept, fun id _ => ⟨fun kept => kept, ?_⟩⟩
  · obtain ⟨fake', stored', same⟩ := old stored origin
    exact h.registered stored'
      ((Declaration.congr_unread Declaration.origin_unread same).symm.trans origin)
  · rintro x ⟨fake, stored, origin, container⟩
    obtain ⟨fake', stored', same⟩ := old stored origin
    refine ⟨fake', stored', ?_, ?_⟩
    · exact (Declaration.congr_unread Declaration.origin_unread same).symm.trans origin
    · exact (Declaration.congr_unread Declaration.container_unread same).symm.trans container

end Committed

/-! ## Keeping a result -/

/-- The workspace once ids up to `next` are given out, the declarations that were made for a result
of the class `id` are stored, and the result is kept. -/
def withResult (w : Workspace) (id : DeclId) (supertypes : List Ty) (synthesis : OverrideSynthesis)
    (next : DeclId) :
    Workspace :=
  ⟨w.store.receive next synthesis.pending,
    w.effective.keep id supertypes { synthesis with pending := [] }⟩

variable {supertypes : List Ty} {synthesis : OverrideSynthesis} {next : DeclId}

theorem cache_withResult (key : DeclId × List Ty) :
    (w.withResult id supertypes synthesis next).effective.cache.get? key =
      if (id, supertypes) = key then some { synthesis with pending := [] }
      else w.effective.cache.get? key :=
  OrderedMap.get?_insert _ _ _ _

theorem fakes_withResult (new : w.effective.cache.get? (id, supertypes) = none) :
    (w.withResult id supertypes synthesis next).fakes = w.fakes ++ synthesis.set.fakes := by
  have values :=
    OrderedMap.values_insert_of_get?_eq_none (a := { synthesis with pending := [] }) new
  change (w.effective.cache.insert _ _).values.flatMap _ = _
  rw [values, List.flatMap_append, List.flatMap_singleton]
  rfl

section Ready

variable (wf : w.store.WellFormed) (ready : synthesis.Ready id w.store next)
include wf ready

theorem grows_withResult : w.store.Grows (w.withResult id supertypes synthesis next).store :=
  ready.batch.grows wf fun _ fake hf => (ready.made fake hf).1

/-- A result that is ready to be stored is committed once it is kept. -/
theorem committed_withResult
    (isClass : ∃ data, w.store.IsClass id data ∧ data.supertypes = supertypes)
    (listed : ∃ members, w.store.members? id = some members) :
    OverrideSynthesis.Committed { synthesis with pending := [] }
      (w.withResult id supertypes synthesis next).store id supertypes := by
  have gains := ready.gains wf
  have grows : w.store.Grows (w.withResult id supertypes synthesis next).store :=
    grows_withResult wf ready
  refine ⟨rfl, ready.owner_eq, ?_,
    listed.imp fun _ known => grows.listed known, gains.members, gains.overridden,
    fun c hc => (ready.conflicting c hc).imp grows.isSome grows.isSome, fun x hx => ?_⟩
  · obtain ⟨data, stored, same⟩ := isClass
    obtain ⟨data', stored', unread⟩ := grows.isClass stored
    exact ⟨data', stored', (ClassData.supertypes_eq unread).trans same⟩
  · obtain ⟨-, -, -, fake, stored, -, origin, container, -⟩ := gains.gained x hx
    exact ⟨fake, stored, origin, container⟩

end Ready

/-- Keeping a result keeps all results committed. -/
theorem Committed.withResult (h : w.Committed) (ready : synthesis.Ready id w.store next)
    (isClass : ∃ data, w.store.IsClass id data ∧ data.supertypes = supertypes)
    (listed : ∃ members, w.store.members? id = some members)
    (new : w.effective.cache.get? (id, supertypes) = none) :
    (w.withResult id supertypes synthesis next).Committed := by
  have gains := ready.gains h.wellFormed
  refine ⟨h.wellFormed.receive ready.batch, fun {id' supertypes' result} kept => ?_, ?_,
    fun stored origin => ?_⟩
  · rw [cache_withResult] at kept
    by_cases same : (id, supertypes) = (id', supertypes')
    · rw [if_pos same] at kept
      obtain ⟨rfl, rfl⟩ := Prod.mk.inj same
      exact Option.some.inj kept ▸ committed_withResult h.wellFormed ready isClass listed
    · rw [if_neg same] at kept
      exact (h.results kept).mono (grows_withResult h.wellFormed ready)
  · rw [fakes_withResult new, List.nodup_append]
    refine ⟨h.nodup, gains.nodup, fun x hx y hy same => ?_⟩
    obtain ⟨fake, stored, -⟩ := h.mem_fakes_iff.1 hx
    obtain ⟨-, -, absent, -⟩ := gains.gained y hy
    rw [← same, stored] at absent
    cases absent
  · rw [fakes_withResult new, List.mem_append]
    exact (ready.get?_cases stored).imp (fun old => h.registered old origin) fun made => made.1

/-- Keeping a result adds nothing for other classes. -/
theorem advances_withResult (wf : w.store.WellFormed) (ready : synthesis.Ready id w.store next)
    (new : w.effective.cache.get? (id, supertypes) = none) (free : id ∉ spared) :
    w.Advances (w.withResult id supertypes synthesis next) spared := by
  refine ⟨grows_withResult wf ready, fun {key result} kept => ?_,
    fun other ho => ⟨fun {supertypes' result} kept => ?_, ?_⟩⟩
  · rw [cache_withResult, if_neg]
    · exact kept
    · rintro rfl
      rw [new] at kept
      cases kept
  · rw [cache_withResult, if_neg] at kept
    · exact kept
    · intro same
      exact free ((Prod.mk.inj same).1 ▸ ho)
  · rintro x ⟨fake, stored, origin, container⟩
    rcases ready.get?_cases stored with old | ⟨-, inside⟩
    · exact ⟨fake, old, origin, container⟩
    · obtain rfl := Option.some.inj (inside.symm.trans container)
      exact absurd ho free

/-! ## Resolutions -/

/-- What a resolution of a class leaves while the classes `visiting` are being resolved. The result
is kept, and a failure adds nothing for the class. -/
structure Resolution (visiting : List DeclId) (w : Workspace) (id : DeclId)
    (r : Except SymbolError OverrideSynthesis) (w' : Workspace) : Prop where
  committed : w'.Committed
  advances : w.Advances w' visiting
  answered : ∀ result, r = .ok result →
    ∃ supertypes, w'.effective.cache.get? (id, supertypes) = some result
  spares : ∀ e, r = .error e → w.Spares w' id

theorem Resolution.of_failed {visiting : List DeclId} {e : SymbolError} (committed : w'.Committed)
    (advances : w.Advances w' (id :: visiting)) : Resolution visiting w id (.error e) w' where
  committed := committed
  advances := advances.of_cons
  answered := fun _ contra => by cases contra
  spares := fun _ _ => advances.spares id List.mem_cons_self

/-- A computation reads the members of its class and fails, or keeps a result that is ready to be
stored. -/
theorem gives_computeFrom_withResult {data : ClassData} {members : List SupertypeMembers}
    {r : Except SymbolError OverrideSynthesis} (wf : w.store.WellFormed)
    (made : Gives (computeFrom id data members) w r w') :
    (∃ e r₁ store, r = .error e ∧ Gives (classMembers id) w.store r₁ store ∧
      w' = { w with store }) ∨
      ∃ declared store synthesis next, Gives (classMembers id) w.store (.ok declared) store ∧
        store.WellFormed ∧ OverrideSynthesis.Ready synthesis id store next ∧
        (∀ fake ∈ synthesis.pending, fake.isCallable = true) ∧
        r = .ok { synthesis with pending := [] } ∧
        w' = ({ w with store } : Workspace).withResult id data.supertypes synthesis next := by
  rcases gives_computeFrom_cases made with failed |
    ⟨declared, store, synthesis, after, asked, run, rfl, rfl⟩
  · exact .inl failed
  obtain ⟨wf', -⟩ := classMembers_wellFormed wf asked
  refine .inr ⟨declared, store, synthesis, after.next, asked, wf', ready_of_synthesizeWith wf' run,
    fun fake hf => isCallable_of_synthesizeWith wf' run hf, rfl, ?_⟩
  rw [store_eq_of_synthesizeWith (gives_ok_iff.2 run)]
  rfl

/-- A result that is computed from those of the supertypes is kept. -/
theorem resolution_of_computeFrom {visiting : List DeclId} {data : ClassData}
    {members : List SupertypeMembers} {w₁ : Workspace} {r : Except SymbolError OverrideSynthesis}
    (stored : w.store.IsClass id data) (miss : w.effective.cache.get? (id, data.supertypes) = none)
    (free : id ∉ visiting) (committed : w₁.Committed) (advances : w.Advances w₁ (id :: visiting))
    (made : Gives (computeFrom id data members) w₁ r w') : Resolution visiting w id r w' := by
  rcases gives_computeFrom_withResult committed.wellFormed made with
    ⟨e, _, store, rfl, asked, rfl⟩ | ⟨declared, store, synthesis, next, asked, -, ready, -, rfl,
      rfl⟩
  · obtain ⟨committed', read⟩ := committed.read asked (id :: visiting)
    exact .of_failed committed' (advances.trans read)
  obtain ⟨committed', read⟩ := committed.read asked (id :: visiting)
  obtain ⟨-, -, listed⟩ := classMembers_wellFormed committed.wellFormed asked
  have advances := advances.trans read
  obtain ⟨data', isClass, unread⟩ := advances.store.isClass stored
  -- the supertypes were resolved while the class itself was, so it has no result yet
  have new : w₁.effective.cache.get? (id, data.supertypes) = none := by
    refine Option.eq_none_iff_forall_ne_some.2 fun result kept => ?_
    rw [(advances.spares id List.mem_cons_self).results kept] at miss
    cases miss
  have committed'' := committed'.withResult ready ⟨data', isClass, ClassData.supertypes_eq unread⟩
    ⟨declared, listed declared rfl⟩ new
  have step := advances_withResult committed'.wellFormed ready new free
  refine ⟨committed'', advances.of_cons.trans step,
    fun result e => ⟨data.supertypes, ?_⟩, fun _ e => by cases e⟩
  rw [cache_withResult, if_pos rfl, Except.ok.inj e]

/-- Resolutions commit the results that they keep. -/
theorem committedRule : ResolutionRule
    (fun visiting w id r w' => w.Committed → Resolution visiting w id r w')
    (fun visiting w _ _ w' => w.Committed → w'.Committed ∧ w.Advances w' visiting) where
  failed committed := .of_failed committed (.refl _ _)
  kept _ known committed :=
    ⟨committed, .refl _ _, fun _ e => ⟨_, Except.ok.inj e ▸ known⟩, fun _ e => by cases e⟩
  blocked _ _ _ supers committed := by
    obtain ⟨committed', advances⟩ := supers committed
    exact .of_failed committed' advances
  computed stored miss free supers made committed := by
    obtain ⟨committed', advances⟩ := supers committed
    exact resolution_of_computeFrom stored miss free committed' advances made
  none committed := ⟨committed, .refl _ _⟩
  skipped _ others committed := others committed
  stopped _ first committed := ⟨(first committed).committed, (first committed).advances⟩
  halted _ first others committed := by
    have first := first committed
    obtain ⟨committed', advances⟩ := others first.committed
    exact ⟨committed', first.advances.trans advances⟩
  found _ first others committed := by
    have first := first committed
    obtain ⟨committed', advances⟩ := others first.committed
    exact ⟨committed', first.advances.trans advances⟩

/-- A query commits the results that it keeps. If it fails, nothing is added for its class. -/
theorem Committed.resolution (h : w.Committed) {r : Except SymbolError OverrideSynthesis}
    (gives : Gives (effectiveSynthesis id) w r w') : Resolution [] w id r w' :=
  committedRule.effectiveSynthesis gives h

end Workspace

end ClassSymbols
