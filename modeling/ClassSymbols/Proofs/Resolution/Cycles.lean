import ClassSymbols.Proofs.Resolution.Answers

/-!
# Cycles of inheritance

The classes that are found for supertypes may lead back to a class. Let the members of all classes
be listed and stored from the start. Then a query for a class from which such a cycle is reached
fails, whatever was asked before, and no result of the class is ever kept. Any other class has a
result, unless its supertypes lead through more classes than a resolution has room for. If there are
members that are listed and not stored, the classes that list them and those below have no results
either.

## Main definitions

* `Store.Cyclic` — whether a cycle of supertypes is reached from a class.
* `Store.Obstructed` — why a class is not resolved, although its members and those of the classes
  above it can be read.
* `Store.Founded` — whether there is nothing in a store that keeps a class from being resolved.
* `Workspace.Grounded` — the workspaces that queries lead to.

## Main statements

* `groundedRule` — what a resolution leaves, and why it fails.
* `Grounded.exists_gives_or_deep` — a query fails for want of room alone.
* `cyclic_or_resolved` — the classes that have results.
-/

namespace ClassSymbols

open Relation

namespace Store

variable {store : Store} {id parent : DeclId} {room : Nat} {visiting : List DeclId}

/-! ## Cycles -/

/-- The direct supertypes of a class are those that its declaration lists. -/
theorem IsClass.parent_iff {data : ClassData} (h : store.IsClass id data) : store.Parent id parent ↔
    ∃ supertype ∈ data.supertypes, supertype.classId?.bind store.findClass? = some parent := by
  refine ⟨fun ⟨data', isClass, found⟩ => ?_, fun found => ⟨data, h, found⟩⟩
  exact h.unique isClass ▸ found

def Cyclic (store : Store) (id : DeclId) : Prop :=
  ∃ other, ReflTransGen store.Parent id other ∧ TransGen store.Parent other other

theorem Cyclic.of_parent (step : store.Parent id parent) (h : store.Cyclic parent) :
    store.Cyclic id := by
  obtain ⟨other, above, cycle⟩ := h
  exact ⟨other, .head step above, cycle⟩

/-- A cycle that is reached from a class is reached from one of its direct supertypes. -/
theorem Cyclic.exists_parent (h : store.Cyclic id) :
    ∃ parent, store.Parent id parent ∧ store.Cyclic parent := by
  obtain ⟨other, above, cycle⟩ := h
  rcases above.cases_head with rfl | ⟨parent, step, above⟩
  · obtain ⟨parent, step, back⟩ := TransGen.head'_iff.1 cycle
    exact ⟨parent, step, id, back, cycle⟩
  · exact ⟨parent, step, other, above, cycle⟩

/-- Why a class is not resolved while the classes `visiting` are being resolved, with room for a
number of further classes: one of those is above it, a cycle is reached from it, or its supertypes
lead through too many classes. -/
inductive Obstructed (store : Store) (room : Nat) (visiting : List DeclId) (id : DeclId) :
    Prop where
  | busy (other : DeclId) (busy : other ∈ visiting) (above : ReflTransGen store.Parent id other)
  | cyclic (cyclic : store.Cyclic id)
  | deep (path : List DeclId) (chain : List.IsChain store.Parent (id :: path))
      (long : room ≤ path.length)

/-- What obstructs a direct supertype obstructs the class. -/
theorem Obstructed.of_parent (step : store.Parent id parent)
    (h : store.Obstructed room (id :: visiting) parent) :
    store.Obstructed (room + 1) visiting id := by
  cases h with
  | busy other busy above =>
    rcases List.mem_cons.1 busy with rfl | busy
    · exact .cyclic ⟨other, .refl, .head' step above⟩
    · exact .busy other busy (.head step above)
  | cyclic cyclic => exact .cyclic (.of_parent step cyclic)
  | deep path chain long =>
    exact .deep (parent :: path) (.cons_cons step chain) (Nat.succ_le_succ long)

/-! ## Foundations -/

/-- Whether the members of a class are listed and stored, and those of the classes above it. -/
def Readable (store : Store) (id : DeclId) : Prop :=
  ∀ other, ReflTransGen store.Parent id other →
    ∃ declared, store.members? other = some declared ∧
      ∀ member ∈ declared, (store.get? member).isSome

/-- Whether there is nothing in a store that keeps a class from being resolved: its members are
listed and stored, and the classes that are found for its supertypes are founded before it. -/
inductive Founded (store : Store) : DeclId → Prop where
  | intro {id : DeclId} {declared : List DeclId} (known : store.members? id = some declared)
      (own : ∀ member ∈ declared, (store.get? member).isSome)
      (above : ∀ parent, store.Parent id parent → Founded store parent) : Founded store id

theorem Readable.of_parent (h : store.Readable id) (step : store.Parent id parent) :
    store.Readable parent :=
  fun other above => h other (.head step above)

theorem Founded.readable (h : store.Founded id) : store.Readable id := by
  induction h with
  | intro known own above ih =>
    intro other path
    rcases path.cases_head with rfl | ⟨parent, step, path⟩
    · exact ⟨_, known, own⟩
    · exact ih parent step other path

theorem Founded.not_cyclic (h : store.Founded id) : ¬ store.Cyclic id := by
  induction h with
  | intro known own above ih =>
    intro cyclic
    obtain ⟨parent, step, cyclic⟩ := cyclic.exists_parent
    exact ih parent step cyclic

/-- A class that is founded is stored. -/
theorem Founded.exists_isClass (h : store.Founded id) : ∃ data, store.IsClass id data := by
  obtain ⟨known, -, -⟩ := h
  obtain ⟨data, isClass, -⟩ := members?_eq_some_iff.1 known
  exact ⟨data, isClass⟩

/-- Where the members of all classes are listed and stored, those above a class are. -/
theorem Registered.readable (registered : store.Registered) (eager : store.Eager)
    (indexed : store.Indexed) {data : ClassData} (isClass : store.IsClass id data) :
    store.Readable id := by
  intro other above
  obtain ⟨data, isClass⟩ : ∃ data, store.IsClass other data := by
    rcases above.cases_tail with rfl | ⟨_, -, _, -, supertype, -, found⟩
    · exact ⟨data, isClass⟩
    · obtain ⟨classId, -, found⟩ := Option.bind_eq_some_iff.1 found
      exact indexed classId other found
  obtain ⟨declared, known⟩ := eager.complete other data isClass
  have known := members?_eq_some_iff.2 ⟨data, isClass, known⟩
  exact ⟨declared, known, registered other declared known⟩

end Store

/-! ## Workspaces -/

namespace Workspace

variable {origin : Store} {u v w w' : Workspace} {id : DeclId} {supertypes : List Ty}

def Covers (u w : Workspace) : Prop := ∀ id, (w.result? id).isSome → (u.result? id).isSome

theorem Covers.refl (w : Workspace) : w.Covers w := fun _ known => known

theorem Covers.trans (h : u.Covers v) (g : v.Covers w) : u.Covers w :=
  fun id known => h id (g id known)

/-- Whether a workspace was reached from a store by queries: the classes that have results are
founded, those above them have results too, and the members of results are stored. -/
structure Grounded (origin : Store) (w : Workspace) : Prop where
  wellFormed : w.store.WellFormed
  grows : origin.Grows w.store
  classes : ∀ {id data}, w.store.IsClass id data → ∃ data', origin.IsClass id data'
  founded : ∀ {id supertypes result}, w.effective.cache.get? (id, supertypes) = some result →
    origin.Founded id
  closed : ∀ {id parent}, (w.result? id).isSome → origin.Parent id parent →
    (w.result? parent).isSome
  stored : ∀ {key result}, w.effective.cache.get? key = some result →
    ∀ member ∈ result.set.memberIds, (w.store.get? member).isSome

theorem result?_initial (origin : Store) (options : SynthesisOptions) (id : DeclId) :
    (Workspace.initial origin options).result? id = none := by
  apply Option.eq_none_iff_forall_ne_some.2
  intro result known
  obtain ⟨_, -, kept⟩ := result?_eq_some_iff.1 known
  cases kept

theorem grounded_initial (wf : origin.WellFormed) (options : SynthesisOptions) :
    (Workspace.initial origin options).Grounded origin where
  wellFormed := wf
  grows := .refl origin
  classes isClass := ⟨_, isClass⟩
  founded kept := by cases kept
  closed known := by simp [result?_initial] at known
  stored kept := by cases kept

/-- The members of a class are read and a result is computed if all members can be read and are
stored. -/
theorem exists_gives_computeFrom (data : ClassData) {declared : List DeclId}
    {members : List SupertypeMembers} {store : Store}
    (read : Gives (classMembers id) w.store (.ok declared) store)
    (own : ∀ x ∈ declared, (store.get? x).isSome)
    (offered : ∀ m ∈ members, ∀ x ∈ m.members, (store.get? x).isSome) :
    ∃ result w', Gives (computeFrom id data members) w (.ok result) w' := by
  have read : Gives (EffectiveM.onStore (classMembers id)) w (.ok declared) { w with store } :=
    gives_onStore_iff.2 ⟨store, read, rfl⟩
  obtain ⟨synthesis, after, run⟩ :=
    exists_synthesizeWith w.effective.options (w.effective.lookup store) id own offered
  have made :
      Gives (EffectiveM.onStore
          (synthesizeWith w.effective.options (w.effective.lookup store) id declared members))
        { w with store } (.ok synthesis) { w with store := after } :=
    gives_onStore_iff.2 ⟨after, gives_ok_iff.2 run, rfl⟩
  have looked :
      Gives (get : EffectiveM Workspace) { w with store } (.ok { w with store }) { w with store } :=
    gives_get_iff.2 ⟨rfl, rfl⟩
  have kept :=
    gives_ok_iff.2 (rfl : commit id data.supertypes synthesis { w with store := after } = .ok _ _)
  exact ⟨_, _, gives_bind_iff.2 (.inr ⟨declared, { w with store }, read,
    gives_bind_iff.2 (.inr ⟨{ w with store }, { w with store }, looked,
      gives_bind_iff.2 (.inr ⟨synthesis, _, made, kept⟩)⟩)⟩)⟩

/-- A result is computed only if all members that the class lists are stored. -/
theorem isSome_of_gives_computeFrom {data : ClassData} {members : List SupertypeMembers}
    {result : OverrideSynthesis} (wf : w.store.WellFormed) {declared : List DeclId}
    (known : w.store.members? id = some declared)
    (made : Gives (computeFrom id data members) w (.ok result) w') :
    ∀ x ∈ declared, (w.store.get? x).isSome := by
  intro x hx
  rcases gives_computeFrom_cases made with ⟨_, _, _, failed, -⟩ | ⟨_, _, _, _, asked, run, -, -⟩
  · cases failed
  obtain ⟨e, rfl⟩ := asked.unique (gives_classMembers_of_known known)
  obtain rfl := Except.ok.inj e
  obtain ⟨_, _, reads, -, -⟩ := (synthesizeWith_eq_ok_iff wf).1 run
  obtain ⟨declaration, -, stored⟩ := exists_mem_of_forall₂_left (mapM_eq_ok_iff.1 reads.resolved) hx
  exact Option.isSome_of_mem (Store.resolve_eq_ok_iff.1 stored)

/-! ### Keeping a result -/

section Keeping

variable {synthesis : OverrideSynthesis} {next : DeclId} (ready : synthesis.Ready id w.store next)
include ready

/-- Keeping a result brings no classes. -/
theorem isClass_withResult_iff (wf : w.store.WellFormed) {x : DeclId} {data : ClassData} :
    (w.withResult id supertypes synthesis next).store.IsClass x data ↔ w.store.IsClass x data := by
  constructor
  · rintro ⟨declaration, stored, hc⟩
    rcases Store.get?_receive_cases stored with old | ⟨made, -⟩
    · exact ⟨declaration, old, hc⟩
    · rw [(ready.made declaration made).1] at hc
      cases hc
  · rintro ⟨declaration, stored, hc⟩
    exact ⟨declaration, (ready.batch.get?_receive_of_old (wf.allocated stored)).trans stored, hc⟩

/-- The classes with results once a further result is kept. -/
theorem isSome_result?_withResult_iff (wf : w.store.WellFormed)
    (isClass : ∃ data, w.store.IsClass id data ∧ data.supertypes = supertypes) (x : DeclId) :
    ((w.withResult id supertypes synthesis next).result? x).isSome ↔
      x = id ∨ (w.result? x).isSome := by
  simp only [Option.isSome_iff_exists, result?_eq_some_iff, isClass_withResult_iff ready wf,
    cache_withResult]
  constructor
  · rintro ⟨result, data', isClass', kept⟩
    split at kept
    · next same => exact .inl (Prod.mk.inj same).1.symm
    · exact .inr ⟨result, data', isClass', kept⟩
  · rintro (rfl | ⟨result, data', isClass', kept⟩)
    · obtain ⟨data, isClass, rfl⟩ := isClass
      exact ⟨_, data, isClass, if_pos rfl⟩
    · by_cases same : (id, supertypes) = (x, data'.supertypes)
      · exact ⟨_, data', isClass', if_pos same⟩
      · exact ⟨result, data', isClass', (if_neg same).trans kept⟩

end Keeping

namespace Grounded

variable (h : w.Grounded origin)
include h

/-- The direct supertypes of a class are those that its declaration has had from the start. -/
theorem parent_iff {data : ClassData} (stored : w.store.IsClass id data) {parent : DeclId} :
    origin.Parent id parent ↔
      ∃ supertype ∈ data.supertypes, supertype.classId?.bind origin.findClass? = some parent := by
  obtain ⟨old, isClass⟩ := h.classes stored
  rw [isClass.parent_iff, h.grows.supertypes_eq isClass stored]

/-- The members of a class stay known. -/
theorem exists_members? (eager : origin.Eager) {data : ClassData}
    (stored : w.store.IsClass id data) :
    ∃ declared, w.store.members? id = some declared ∧ origin.members? id = some declared := by
  obtain ⟨old, isClass⟩ := h.classes stored
  obtain ⟨declared, known⟩ := eager.complete id old isClass
  have known := Store.members?_eq_some_iff.2 ⟨old, isClass, known⟩
  exact ⟨declared, h.grows.listed known, known⟩

/-- Keeping a result of a class that is founded, when the classes above it have results. -/
theorem withResult {synthesis : OverrideSynthesis} {next : DeclId}
    (ready : synthesis.Ready id w.store next)
    (isClass : ∃ data, w.store.IsClass id data ∧ data.supertypes = supertypes)
    (founded : origin.Founded id)
    (above : ∀ parent, origin.Parent id parent → (w.result? parent).isSome) :
    (w.withResult id supertypes synthesis next).Grounded origin := by
  have grows : w.store.Grows (w.withResult id supertypes synthesis next).store :=
    grows_withResult h.wellFormed ready
  refine ⟨h.wellFormed.receive ready.batch, h.grows.trans grows, ?_, ?_, ?_, ?_⟩
  · intro other data' stored
    exact h.classes ((isClass_withResult_iff ready h.wellFormed).1 stored)
  · intro other supertypes' result kept
    rw [cache_withResult] at kept
    split at kept
    · next same => exact (Prod.mk.inj same).1 ▸ founded
    · exact h.founded kept
  · intro other parent known step
    apply (isSome_result?_withResult_iff ready h.wellFormed isClass parent).2
    right
    rcases (isSome_result?_withResult_iff ready h.wellFormed isClass other).1 known with rfl | known
    · exact above parent step
    · exact h.closed known step
  · intro key result kept member hm
    rw [cache_withResult] at kept
    split at kept
    · obtain rfl := Option.some.inj kept
      exact (ready.gains h.wellFormed).members member hm
    · exact grows.isSome (h.stored kept member hm)

end Grounded

/-! ## Resolutions -/

/-- What a resolution of a class leaves. If it succeeds then the class is founded and has the
result. If it fails then something obstructs the class, unless there are members that cannot be
read. -/
structure Verdict (origin : Store) (room : Nat) (visiting : List DeclId) (w : Workspace)
    (id : DeclId) (r : Except SymbolError OverrideSynthesis) (w' : Workspace) : Prop where
  grounded : w'.Grounded origin
  grows : w.store.Grows w'.store
  covers : w'.Covers w
  resolved : ∀ result, r = .ok result → origin.Founded id ∧ w'.result? id = some result
  refused : ∀ e, r = .error e → origin.Readable id →
    (∃ reason, e = .malformedChain reason) ∧ origin.Obstructed room visiting id

/-- What a resolution of supertypes leaves, likewise. -/
structure Verdicts (origin : Store) (room : Nat) (visiting : List DeclId) (w : Workspace)
    (supertypes : List Ty) (r : Except SymbolError (List SupertypeMembers)) (w' : Workspace) :
    Prop where
  grounded : w'.Grounded origin
  grows : w.store.Grows w'.store
  covers : w'.Covers w
  resolved : ∀ members, r = .ok members →
    (∀ m ∈ members, ∀ member ∈ m.members, (w'.store.get? member).isSome) ∧
    ∀ supertype ∈ supertypes, ∀ owner, supertype.classId?.bind origin.findClass? = some owner →
      origin.Founded owner ∧ (w'.result? owner).isSome
  refused : ∀ e, r = .error e →
    (∀ supertype ∈ supertypes, ∀ owner, supertype.classId?.bind origin.findClass? = some owner →
      origin.Readable owner) →
    (∃ reason, e = .malformedChain reason) ∧ ∃ supertype ∈ supertypes, ∃ owner,
      supertype.classId?.bind origin.findClass? = some owner ∧ origin.Obstructed room visiting owner

/-- A resolution of a class that fails leaves a reason. -/
theorem Verdict.of_error {room : Nat} {visiting : List DeclId} {e : SymbolError}
    (grounded : w'.Grounded origin) (grows : w.store.Grows w'.store) (covers : w'.Covers w)
    (refused : origin.Readable id →
      (∃ reason, e = .malformedChain reason) ∧ origin.Obstructed room visiting id) :
    Verdict origin room visiting w id (.error e) w' where
  grounded := grounded
  grows := grows
  covers := covers
  resolved := nofun
  refused := by
    rintro _ ⟨⟩
    exact refused

namespace Verdicts

variable {room : Nat} {visiting : List DeclId}

/-- A resolution of supertypes that fails leaves a reason. -/
theorem of_error {e : SymbolError} (grounded : w'.Grounded origin) (grows : w.store.Grows w'.store)
    (covers : w'.Covers w)
    (refused : (∀ supertype ∈ supertypes,
      ∀ owner, supertype.classId?.bind origin.findClass? = some owner → origin.Readable owner) →
      (∃ reason, e = .malformedChain reason) ∧
      ∃ supertype ∈ supertypes, ∃ owner, supertype.classId?.bind origin.findClass? = some owner ∧
      origin.Obstructed room visiting owner) :
    Verdicts origin room visiting w supertypes (.error e) w' where
  grounded := grounded
  grows := grows
  covers := covers
  resolved := nofun
  refused := by
    rintro _ ⟨⟩
    exact refused

/-- What obstructs one of some supertypes obstructs one of more supertypes. -/
theorem refused_cons {supertype : Ty} {r : Except SymbolError (List SupertypeMembers)}
    (h : Verdicts origin room visiting w supertypes r w') (e : SymbolError) (failed : r = .error e)
    (readable : ∀ other ∈ supertype :: supertypes,
      ∀ owner, other.classId?.bind origin.findClass? = some owner → origin.Readable owner) :
    (∃ reason, e = .malformedChain reason) ∧ ∃ other ∈ supertype :: supertypes, ∃ owner,
      other.classId?.bind origin.findClass? = some owner ∧
      origin.Obstructed room visiting owner := by
  obtain ⟨malformed, other, ho, obstructed⟩ :=
    h.refused e failed (List.forall_mem_cons.1 readable).2
  exact ⟨malformed, other, List.mem_cons_of_mem _ ho, obstructed⟩

end Verdicts

section Rule

variable (eager : origin.Eager) {room : Nat} {visiting : List DeclId}
include eager

theorem findClass?_of_grounded (h : w.Grounded origin) (supertype : Ty) :
    supertype.classId?.bind w.store.findClass? = supertype.classId?.bind origin.findClass? := by
  have same := (h.grows.complete eager.complete).2
  cases supertype.classId? with
  | none => rfl
  | some classId => exact same classId

variable (listed : ∀ {id declared}, origin.members? id = some declared →
  ∀ member ∈ declared, member.number < origin.next.number)

omit eager in
include listed in
/-- Members that are listed and stored later on were stored from the start: nothing else is stored
under ids that were given out before. -/
theorem Grounded.isSome_of_listed (h : w.Grounded origin) {declared : List DeclId}
    (known : origin.members? id = some declared)
    (own : ∀ member ∈ declared, (w.store.get? member).isSome) :
    ∀ member ∈ declared, (origin.get? member).isSome := by
  intro member hm
  obtain ⟨declaration, stored⟩ := Option.isSome_iff_exists.1 (own member hm)
  rcases h.grows.fresh stored with ⟨old, stored⟩ | new
  · exact Option.isSome_of_mem stored
  · have := listed known member hm
    omega

/-- The classes with results once a result is computed. -/
theorem Grounded.isSome_result?_computeFrom_iff (h : w.Grounded origin) {data : ClassData}
    (isClass : ∃ data', w.store.IsClass id data' ∧ data'.supertypes = data.supertypes)
    {members : List SupertypeMembers} {result : OverrideSynthesis}
    (made : Gives (computeFrom id data members) w (.ok result) w') (x : DeclId) :
    (w'.result? x).isSome ↔ x = id ∨ (w.result? x).isSome := by
  rcases gives_computeFrom_withResult h.wellFormed made with
    ⟨_, _, _, failed, -⟩ | ⟨_, store, _, _, asked, wf, ready, -, -, rfl⟩
  · cases failed
  · obtain rfl := eq_of_classMembers_of_complete (h.grows.complete eager.complete).1 asked
    exact isSome_result?_withResult_iff ready wf isClass x

include listed

theorem verdict_of_computeFrom {w₁ : Workspace} {data : ClassData} {members : List SupertypeMembers}
    {r : Except SymbolError OverrideSynthesis} (h : w.Grounded origin)
    (stored : w.store.IsClass id data)
    (supers : Verdicts origin room (id :: visiting) w data.supertypes (.ok members) w₁)
    (made : Gives (computeFrom id data members) w₁ r w') :
    Verdict origin (room + 1) visiting w id r w' := by
  obtain ⟨offered, settled⟩ := supers.resolved members rfl
  have grounded := supers.grounded
  have above (parent : DeclId) (step : origin.Parent id parent) :
      origin.Founded parent ∧ (w₁.result? parent).isSome := by
    obtain ⟨supertype, hs, found⟩ := (h.parent_iff stored).1 step
    exact settled supertype hs parent found
  obtain ⟨data', isClass, unread⟩ := supers.grows.isClass stored
  have same := ClassData.supertypes_eq unread
  obtain ⟨declared, known₁, known⟩ := grounded.exists_members? eager isClass
  have read := gives_classMembers_of_known known₁
  rcases gives_computeFrom_withResult grounded.wellFormed made with
    ⟨e, _, _, rfl, asked, rfl⟩ | ⟨_, _, synthesis, next, asked, -, ready, -, rfl, rfl⟩
  · obtain ⟨-, rfl⟩ := asked.unique read
    refine ⟨grounded, supers.grows, supers.covers, nofun, ?_⟩
    -- Once the supertypes are resolved, members that are not stored are the only reason to fail.
    intro _ _ readable
    obtain ⟨_, known', own⟩ := readable id .refl
    obtain rfl := Option.some.inj (known.symm.trans known')
    obtain ⟨result, w₂, succeeds⟩ := exists_gives_computeFrom data read
      (fun member hm => grounded.grows.isSome (own member hm)) offered
    cases (made.unique succeeds).1
  · obtain ⟨-, rfl⟩ := asked.unique read
    have own := isSome_of_gives_computeFrom grounded.wellFormed known₁ made
    have founded : origin.Founded id :=
      .intro known (grounded.isSome_of_listed listed known own) fun parent step =>
        (above parent step).1
    have kept := grounded.isSome_result?_computeFrom_iff eager ⟨data', isClass, same⟩ made
    refine ⟨grounded.withResult ready ⟨data', isClass, same⟩ founded fun parent step =>
      (above parent step).2,
      supers.grows.trans (grows_withResult grounded.wellFormed ready), ?_, ?_, nofun⟩
    · intro x known
      exact (kept x).2 (.inr (supers.covers x known))
    · intro result e
      obtain rfl := Except.ok.inj e
      refine ⟨founded, result?_eq_some_iff.2 ⟨data', ?_, ?_⟩⟩
      · exact (isClass_withResult_iff ready grounded.wellFormed).2 isClass
      · exact (cache_withResult _).trans (if_pos (by rw [same]))

/-- A resolution succeeds only for a class that is founded, and fails only if something obstructs
the class, unless there are members that cannot be read. -/
theorem groundedRule : BoundedRule
    (fun room visiting w id r w' => w.Grounded origin → Verdict origin room visiting w id r w')
    (fun room visiting w supertypes r w' =>
      w.Grounded origin → Verdicts origin room visiting w supertypes r w') where
  refused {room visiting w id e} asked h := by
    refine .of_error h (.refl _) (.refl _) fun readable => ?_
    obtain ⟨_, known, -⟩ := readable id .refl
    obtain ⟨data, isClass, -⟩ := Store.members?_eq_some_iff.1 known
    obtain ⟨data', isClass', -⟩ := h.grows.isClass isClass
    obtain ⟨busy, malformed⟩ := request_eq_error isClass' asked
    exact ⟨malformed, .busy id busy .refl⟩
  kept isClass kept h := by
    refine ⟨h, .refl _, .refl _, ?_, nofun⟩
    rintro _ ⟨⟩
    exact ⟨h.founded kept, result?_eq_some_iff.2 ⟨_, isClass, kept⟩⟩
  full {visiting w id data reason} _ _ _ h :=
    .of_error h (.refl _) (.refl _) fun _ =>
      ⟨⟨reason, rfl⟩, .deep [] (.singleton id) (Nat.zero_le _)⟩
  blocked {room visiting w id data e w'} stored _ _ supers h := by
    have supers := supers h
    refine .of_error supers.grounded supers.grows supers.covers fun readable => ?_
    obtain ⟨malformed, supertype, hs, owner, found, obstructed⟩ := supers.refused e rfl
      fun supertype hs owner found =>
        readable.of_parent ((h.parent_iff stored).2 ⟨supertype, hs, found⟩)
    exact ⟨malformed, obstructed.of_parent ((h.parent_iff stored).2 ⟨supertype, hs, found⟩)⟩
  computed stored _ _ supers made h := verdict_of_computeFrom eager listed h stored (supers h) made
  none h := by
    refine ⟨h, .refl _, .refl _, ?_, nofun⟩
    rintro _ ⟨⟩
    simp
  skipped {room visiting w supertype rest r w'} search others h := by
    rw [findClass?_of_grounded eager h] at search
    have others := others h
    refine ⟨others.grounded, others.grows, others.covers, ?_, others.refused_cons⟩
    intro members e
    obtain ⟨offered, settled⟩ := others.resolved members e
    refine ⟨offered, List.forall_mem_cons.2 ⟨?_, settled⟩⟩
    intro owner found
    cases search.symm.trans found
  stopped {room visiting w supertype rest owner e w'} search first h := by
    rw [findClass?_of_grounded eager h] at search
    have first := first h
    refine .of_error first.grounded first.grows first.covers fun readable => ?_
    obtain ⟨malformed, obstructed⟩ :=
      first.refused e rfl (readable supertype List.mem_cons_self owner search)
    exact ⟨malformed, supertype, List.mem_cons_self, owner, search, obstructed⟩
  halted _ first others h := by
    have first := first h
    have others := others first.grounded
    exact .of_error others.grounded (first.grows.trans others.grows)
      (others.covers.trans first.covers)
      (others.refused_cons _ rfl)
  found {room visiting w supertype rest owner synthesis w₁ members w'} search first others h := by
    rw [findClass?_of_grounded eager h] at search
    have first := first h
    have others := others first.grounded
    obtain ⟨founded, kept⟩ := first.resolved synthesis rfl
    obtain ⟨offered, settled⟩ := others.resolved members rfl
    refine ⟨others.grounded, first.grows.trans others.grows, others.covers.trans first.covers, ?_,
      nofun⟩
    rintro _ ⟨⟩
    constructor
    · refine List.forall_mem_cons.2 ⟨?_, offered⟩
      intro member hm
      obtain ⟨_, -, kept⟩ := result?_eq_some_iff.1 kept
      exact others.grows.isSome (first.grounded.stored kept member hm)
    · refine List.forall_mem_cons.2 ⟨?_, settled⟩
      intro other found
      obtain rfl := Option.some.inj (search.symm.trans found)
      exact ⟨founded, others.covers owner (Option.isSome_of_mem kept)⟩

theorem Grounded.verdict (h : w.Grounded origin) {r : Except SymbolError OverrideSynthesis}
    (gives : Gives (resolveWithin room visiting id) w r w') :
    Verdict origin room visiting w id r w' :=
  (groundedRule eager listed).resolveWithin gives h

theorem Grounded.verdicts (h : w.Grounded origin) {r : Except SymbolError (List SupertypeMembers)}
    (gives : Gives (supertypeMembers (resolveWithin room visiting) supertypes) w r w') :
    Verdicts origin room visiting w supertypes r w' :=
  (groundedRule eager listed).supertypeMembers
    (fun _ _ _ _ => (groundedRule eager listed).resolveWithin) gives h

/-- A question leads to a grounded workspace again. -/
theorem Grounded.ask (h : w.Grounded origin) {query : ClassQuery} {r : Except SymbolError Answer}
    (gives : Gives query.ask w r w') : w'.Grounded origin := by
  rcases query.gives_ask_cases gives with ⟨r', store, reads, rfl⟩ | ⟨r', resolved⟩
  · rw [eq_of_classMembers_of_complete (h.grows.complete eager.complete).1 reads]
    exact h
  · exact (h.verdict eager listed resolved).grounded

/-- A sequence of questions leads to a grounded workspace again. -/
theorem Grounded.afterAll (h : w.Grounded origin) (queries : List ClassQuery) :
    (w.afterAll queries).Grounded origin := by
  induction queries generalizing w with
  | nil => exact h
  | cons query rest ih =>
    obtain ⟨r, gives⟩ := w.exists_gives_after query.ask
    exact ih (h.ask eager listed gives)

/-- If all members can be read and no cycle is reached from a class, a query for it fails for want
of room alone. -/
theorem Grounded.exists_gives_or_deep (h : w.Grounded origin) (readable : origin.Readable id)
    (acyclic : ¬ origin.Cyclic id) :
    (∃ result w', Gives (effectiveSynthesis id) w (.ok result) w') ∨
      (∃ reason w', Gives (effectiveSynthesis id) w (.error (.malformedChain reason)) w') ∧
      ∃ path, List.IsChain origin.Parent (id :: path) ∧
        Limits.ownershipDepth < (id :: path).length := by
  obtain ⟨r, w', gives⟩ := exists_gives (effectiveSynthesis id) w
  cases r with
  | ok result => exact .inl ⟨result, w', gives⟩
  | error e =>
    obtain ⟨⟨reason, rfl⟩, obstructed⟩ := (h.verdict eager listed gives).refused e rfl readable
    refine .inr ⟨⟨reason, w', gives⟩, ?_⟩
    cases obstructed with
    | busy other busy => cases busy
    | cyclic cyclic => exact absurd cyclic acyclic
    | deep path chain long => exact ⟨path, chain, Nat.lt_succ_of_le long⟩

end Rule

end Workspace

/-- Let the members of all classes be listed and stored, and let questions be asked. From then on
every query ends. If a cycle of supertypes is reached from a class then a query for it fails, and no
result of the class is kept. If none is and the supertypes of the class lead through at most as many
classes as a resolution has room for, the class itself included, then a query for it succeeds. -/
theorem cyclic_or_resolved {store : Store} (wf : store.WellFormed) (indexed : store.Indexed)
    (eager : store.Eager) (registered : store.Registered) (options : SynthesisOptions)
    (queries : List ClassQuery) (id : DeclId) :
    let w := (Workspace.initial store options).afterAll queries
    (∃ r w', Gives (effectiveSynthesis id) w r w') ∧
    (store.Cyclic id →
      (∀ r w', Gives (effectiveSynthesis id) w r w' →
        ∃ reason, r = .error (.malformedChain reason)) ∧
      ∀ supertypes, w.effective.cache.get? (id, supertypes) = none) ∧
    ((∃ data, store.IsClass id data) → ¬ store.Cyclic id →
      (∀ path, List.IsChain store.Parent (id :: path) →
        (id :: path).length ≤ Limits.ownershipDepth) →
      ∃ result w', Gives (effectiveSynthesis id) w (.ok result) w') := by
  intro w
  have listed {id : DeclId} {declared : List DeclId} (known : store.members? id = some declared) :
      ∀ member ∈ declared, member.number < store.next.number := by
    intro member hm
    obtain ⟨_, stored⟩ := Option.isSome_iff_exists.1 (registered id declared known member hm)
    exact wf.allocated stored
  have grounded : w.Grounded store :=
    (Workspace.grounded_initial wf options).afterAll eager listed queries
  refine ⟨exists_gives _ _, ?_, ?_⟩
  · intro cyclic
    constructor
    · intro r w' gives
      cases r with
      | ok result =>
        exact absurd cyclic ((grounded.verdict eager listed gives).resolved result rfl).1.not_cyclic
      | error e =>
        obtain ⟨parent, ⟨data, isClass, -⟩, -⟩ := cyclic.exists_parent
        obtain ⟨⟨reason, rfl⟩, -⟩ := (grounded.verdict eager listed gives).refused e rfl
          (registered.readable eager indexed isClass)
        exact ⟨reason, rfl⟩
    · intro supertypes
      apply Option.eq_none_iff_forall_ne_some.2
      intro result kept
      exact (grounded.founded kept).not_cyclic cyclic
  · rintro ⟨data, isClass⟩ acyclic short
    have readable := registered.readable eager indexed isClass
    rcases grounded.exists_gives_or_deep eager listed readable acyclic with resolved |
      ⟨-, path, chain, long⟩
    · exact resolved
    · exact absurd (short path chain) (Nat.not_le_of_lt long)

/-- The classes `C` and `D` extend each other, and `E` extends `B` and `C`. So a query for `E`
fails, before and after one for `C`. But `B`, which extends `A` alone, has a result. -/
theorem cyclic_or_resolved_of_five_classes :
    let declarations :=
      [.plainClass ⟨1⟩ "A" [] [⟨6⟩], .plainClass ⟨2⟩ "B" ["A"] [], .plainClass ⟨3⟩ "C" ["D"] [],
      .plainClass ⟨4⟩ "D" ["C"] [], .plainClass ⟨5⟩ "E" ["B", "C"] [],
        .plainFunction ⟨6⟩ ⟨1⟩ .nullableAny]
    let store := Store.empty.receive ⟨7⟩ declarations
    let w := (Workspace.initial store {}).afterAll [.synthesis ⟨5⟩, .synthesis ⟨3⟩]
    store.Cyclic ⟨5⟩ ∧
    (∀ r w', Gives (effectiveSynthesis ⟨5⟩) w r w' →
      ∃ reason, r = .error (.malformedChain reason)) ∧
    ∃ result w', Gives (effectiveSynthesis ⟨2⟩) w (.ok result) w' := by
  intro declarations store w
  have sound : store.Sound := Store.sound_receive_empty (by decide) (by decide) (by decide)
  have nodup : (declarations.map (·.id)).Nodup := by decide
  have eager : store.Eager := Store.eager_receive_empty (by decide)
  have registered : store.Registered := Store.registered_receive_empty nodup (by decide)
  have isClass (declaration : Declaration) {data : ClassData} (h : declaration ∈ declarations)
      (hc : declaration.class? = some data) : store.IsClass declaration.id data :=
    Store.isClass_receive_empty nodup h hc
  have a := isClass (.plainClass ⟨1⟩ "A" [] [⟨6⟩]) (by simp [declarations]) rfl
  have b := isClass (.plainClass ⟨2⟩ "B" ["A"] []) (by simp [declarations]) rfl
  have c := isClass (.plainClass ⟨3⟩ "C" ["D"] []) (by simp [declarations]) rfl
  have d := isClass (.plainClass ⟨4⟩ "D" ["C"] []) (by simp [declarations]) rfl
  have e := isClass (.plainClass ⟨5⟩ "E" ["B", "C"] []) (by simp [declarations]) rfl
  have c_d : store.Parent ⟨3⟩ ⟨4⟩ :=
    c.parent_iff.2 ⟨.ofClass ⟨"", "D", false⟩, by simp, by decide +kernel⟩
  have d_c : store.Parent ⟨4⟩ ⟨3⟩ :=
    d.parent_iff.2 ⟨.ofClass ⟨"", "C", false⟩, by simp, by decide +kernel⟩
  have e_c : store.Parent ⟨5⟩ ⟨3⟩ :=
    e.parent_iff.2 ⟨.ofClass ⟨"", "C", false⟩, by simp, by decide +kernel⟩
  have cyclic : store.Cyclic ⟨5⟩ := ⟨⟨3⟩, .single e_c, .tail (.single c_d) d_c⟩
  have above_a : ∀ p, ¬ store.Parent ⟨1⟩ p := fun p step => by simpa using a.parent_iff.1 step
  have above_b : ∀ p, store.Parent ⟨2⟩ p → p = ⟨1⟩ := by
    intro p step
    have found : store.findClass? ⟨"", "A", false⟩ = some ⟨1⟩ := by decide +kernel
    obtain ⟨supertype, hs, search⟩ := b.parent_iff.1 step
    obtain rfl := List.mem_singleton.1 hs
    exact Option.some.inj (search.symm.trans found)
  have acyclic : ¬ store.Cyclic ⟨2⟩ := by
    intro h
    obtain ⟨p, step, h⟩ := h.exists_parent
    obtain ⟨q, step', -⟩ := h.exists_parent
    exact above_a q (above_b p step ▸ step')
  have short : ∀ path, List.IsChain store.Parent (⟨2⟩ :: path) →
      (⟨2⟩ :: path : List DeclId).length ≤ Limits.ownershipDepth := by
    rintro (_ | ⟨p, _ | ⟨q, path⟩⟩) chain
    · decide
    · exact (by decide : 2 ≤ Limits.ownershipDepth)
    · obtain ⟨step, chain⟩ := List.isChain_cons_cons.1 chain
      obtain ⟨step', -⟩ := List.isChain_cons_cons.1 chain
      exact absurd (above_b p step ▸ step') (above_a q)
  have settled (id : DeclId) :=
    cyclic_or_resolved sound.toWellFormed (Store.indexed_receive_empty nodup) eager registered {}
      [.synthesis ⟨5⟩, .synthesis ⟨3⟩] id
  exact ⟨cyclic, ((settled ⟨5⟩).2.1 cyclic).1, (settled ⟨2⟩).2.2 ⟨_, b⟩ acyclic short⟩

end ClassSymbols
