import ClassSymbols.Proofs.Data.Grouping
import ClassSymbols.Proofs.Resolution.Queries
import ClassSymbols.Proofs.Store.Filling
import Mathlib.Logic.Relation

/-!
# Results in hierarchies

A query on a workspace without results leaves a result for the class and for each class above it. If
the members of all classes are listed from the start, the supertypes of a class are found or not,
whatever was asked before.

## Main definitions

* `Store.Parent` — the direct supertypes of a class that are found.
* `Workspace.result?` — the result that is kept for a class.
* `Workspace.supertypesOf` — what the direct supertypes of a class offer.
* `Workspace.initial` — the workspace before anything was computed.

## Main statements

* `History.Facts.exists_parent` — the results of direct supertypes that a result was computed from.
-/

namespace ClassSymbols

namespace Store

def Parent (store : Store) (id parent : DeclId) : Prop :=
  ∃ data, store.IsClass id data ∧
    ∃ supertype ∈ data.supertypes, supertype.classId?.bind store.findClass? = some parent

end Store

def Workspace.result? (w : Workspace) (id : DeclId) : Option OverrideSynthesis := do
  let declaration ← w.store.get? id
  let data ← declaration.class?
  w.effective.cache.get? (id, data.supertypes)

theorem Workspace.result?_eq_some_iff {w : Workspace} {id : DeclId} {result : OverrideSynthesis} :
    w.result? id = some result ↔
      ∃ data, w.store.IsClass id data ∧
        w.effective.cache.get? (id, data.supertypes) = some result := by
  simp only [result?, Store.IsClass, Option.bind_eq_bind, Option.bind_eq_some_iff]
  constructor
  · rintro ⟨declaration, stored, data, hc, kept⟩
    exact ⟨data, ⟨declaration, stored, hc⟩, kept⟩
  · rintro ⟨data, ⟨declaration, stored, hc⟩, kept⟩
    exact ⟨declaration, stored, data, hc, kept⟩

/-- A result that is kept stays. -/
theorem Workspace.LeadsTo.result?_eq {w w' : Workspace} (h : w.LeadsTo w') {id : DeclId}
    {result : OverrideSynthesis} (known : w.result? id = some result) :
    w'.result? id = some result := by
  obtain ⟨data, isClass, kept⟩ := result?_eq_some_iff.1 known
  obtain ⟨data', isClass', same⟩ := h.store.isClass isClass
  exact result?_eq_some_iff.2 ⟨data', isClass', ClassData.supertypes_eq same ▸ h.cached kept⟩

theorem Workspace.mem_entries_of_result? {w : Workspace} {id : DeclId} {result : OverrideSynthesis}
    (h : w.result? id = some result) : ∃ key, (key, result) ∈ w.effective.cache.entries := by
  obtain ⟨data, -, kept⟩ := result?_eq_some_iff.1 h
  exact ⟨(id, data.supertypes), (OrderedMap.mem_entries_iff _).2 kept⟩

/-- What a supertype offers, if its class is found and has a result. -/
def Workspace.offer? (w : Workspace) (supertype : Ty) : Option SupertypeMembers := do
  let owner ← supertype.classId?.bind w.store.findClass?
  let result ← w.result? owner
  return ⟨supertype, owner, result.set.memberIds⟩

def Workspace.supertypesOf (w : Workspace) (id : DeclId) : List SupertypeMembers :=
  match (w.store.get? id).bind (·.class?) with
  | none => []
  | some data => data.supertypes.filterMap w.offer?

theorem Workspace.supertypesOf_of_isClass {w : Workspace} {id : DeclId} {data : ClassData}
    (h : w.store.IsClass id data) : w.supertypesOf id = data.supertypes.filterMap w.offer? := by
  obtain ⟨declaration, stored, hc⟩ := h
  simp [supertypesOf, stored, hc]

def Workspace.initial (store : Store) (options : SynthesisOptions) : Workspace :=
  ⟨store, { options }⟩

theorem Workspace.fresh_initial {store : Store} (sound : store.Sound) (options : SynthesisOptions) :
    (Workspace.initial store options).Fresh := ⟨sound, fun _ => rfl, fun _ => rfl⟩

/-! ## Results -/

namespace History.Facts

variable {loads : Prop} {origin w : Workspace} {log : List Computation}
  (facts : Facts loads origin log w) {c : Computation} (hc : c ∈ log)
include facts hc

/-- The class of a result is stored, with its supertypes. -/
theorem exists_isClass : ∃ data, w.store.IsClass c.owner data ∧ data.supertypes = c.supertypes := by
  obtain ⟨-, _, _, follows, -⟩ := facts.follows c hc
  obtain ⟨old, stored, -⟩ := follows.isClass
  obtain ⟨step, later⟩ := facts.finished c hc
  obtain ⟨data, isClass, -⟩ := (step.trans later).store.isClass stored
  exact ⟨data, isClass, facts.isClass hc isClass⟩

/-- Results are kept. -/
theorem result?_eq : w.result? c.owner = some c.result := by
  obtain ⟨data, ⟨declaration, at_w, hd⟩, supertypes⟩ := facts.exists_isClass hc
  have kept := facts.cached_iff.2 ⟨c, hc, rfl, rfl⟩
  rw [Computation.key, ← supertypes] at kept
  simpa [Workspace.result?, at_w, hd] using kept

omit hc in
/-- Only results that were computed are kept. -/
theorem exists_of_result? {id : DeclId} {result : OverrideSynthesis}
    (known : w.result? id = some result) :
    ∃ c ∈ log, c.owner = id := by
  obtain ⟨_, -, kept⟩ := Workspace.result?_eq_some_iff.1 known
  obtain ⟨c, hc, key, -⟩ := facts.cached_iff.1 kept
  exact ⟨c, hc, congrArg Prod.fst key⟩

/-- What a result says about overriding is what the workspace knows. -/
theorem mem_successors {e id : DeclId} (overrides : id ∈ c.synthesis.set.overriddenBy e) :
    id ∈ (w.effective.lookup w.store).successors e := by
  unfold OverrideSet.overriddenBy at overrides
  cases found : c.synthesis.set.overridden.get? e with
  | none => simp [found] at overrides
  | some list =>
    rw [found] at overrides
    have remembered := facts.remembered_iff.2 ⟨c, hc, found⟩
    simpa [EffectiveMembers.lookup, EffectiveMembers.overriddenBy, remembered] using overrides

section Parents

variable (fresh : origin.Fresh) (still : origin.store.Still w.store)
include fresh still

/-- If all members are known from the start, a result was computed from what is found for the
supertypes from the start. -/
theorem matched_eq : c.members.map (fun m => (m.supertype, m.owner)) =
    c.supertypes.filterMap fun supertype =>
      (supertype.classId?.bind origin.store.findClass?).map (supertype, ·) := by
  obtain ⟨-, _, _, follows, -⟩ := facts.follows c hc
  refine follows.matched.trans (filterMap_zip_of_forall₂ (follows.answers.imp ?_))
  rintro supertype owner ⟨u, before, after, rfl⟩
  obtain ⟨step, later⟩ := facts.finished c hc
  have same :=
    still.findClass?_between (follows.started.trans before).store
      (after.trans (step.trans later)).store
    fresh.sound.toWellFormed
  cases supertype.classId? with
  | none => rfl
  | some classId => exact (same classId).symm

omit still in
/-- A result was computed from the result of each class that offered members. -/
theorem exists_offered {m : SupertypeMembers} (hm : m ∈ c.members) :
    ∃ c' ∈ log, c'.owner = m.owner ∧ c'.synthesis.set.memberIds = m.members ∧
      c'.finish.LeadsTo c.before := by
  obtain ⟨-, log₀, history, follows, suffix⟩ := facts.follows c hc
  obtain ⟨c', hc', owner, members⟩ := follows.offered m hm
  exact ⟨c', suffix.subset (List.mem_cons_of_mem _ hc'), owner, members,
    ((history.facts fresh).finished c' hc').2⟩

/-- If all members are known from the start, the classes that are found for the supertypes offered
members. -/
theorem exists_parent {supertype : Ty} (hs : supertype ∈ c.supertypes) {parent : DeclId}
    (found : supertype.classId?.bind origin.store.findClass? = some parent) :
    ∃ m ∈ c.members, m.supertype = supertype ∧ m.owner = parent := by
  have listed : (supertype, parent) ∈ c.members.map fun m => (m.supertype, m.owner) := by
    rw [facts.matched_eq hc fresh still, List.mem_filterMap]
    exact ⟨supertype, hs, by rw [found]; rfl⟩
  obtain ⟨m, hm, e⟩ := List.mem_map.1 listed
  obtain ⟨rfl, rfl⟩ := Prod.mk.inj e
  exact ⟨m, hm, rfl, rfl⟩

/-- What the supertypes offered can be read off the workspace. -/
theorem supertypesOf_eq : w.supertypesOf c.owner = c.members := by
  have found : ∀ supertype : Ty, supertype.classId?.bind w.store.findClass? =
      supertype.classId?.bind origin.store.findClass? := by
    intro supertype
    cases supertype.classId? with
    | none => rfl
    | some classId =>
      exact still.findClass?_between facts.later.store (.refl _) fresh.sound.toWellFormed classId
  let rebuild (pair : Ty × DeclId) : Option SupertypeMembers :=
    (w.result? pair.2).map fun result => ⟨pair.1, pair.2, result.set.memberIds⟩
  have rebuilt : (c.members.map fun m => (m.supertype, m.owner)).filterMap rebuild = c.members := by
    rw [List.filterMap_map]
    refine (List.filterMap_congr fun m hm => ?_).trans List.filterMap_some
    obtain ⟨c', hc', owner, members, -⟩ := facts.exists_offered hc fresh hm
    have kept : w.result? m.owner = some c'.result := owner ▸ facts.result?_eq hc'
    simp [rebuild, kept, Computation.result, members]
  obtain ⟨data, isClass, supertypes⟩ := facts.exists_isClass hc
  rw [Workspace.supertypesOf_of_isClass isClass, supertypes, ← rebuilt,
    facts.matched_eq hc fresh still, List.filterMap_filterMap]
  refine List.filterMap_congr fun supertype _ => ?_
  rw [Workspace.offer?, found]
  cases supertype.classId?.bind origin.store.findClass? with
  | none => rfl
  | some owner => cases h : w.result? owner <;> simp [rebuild, h]

end Parents

theorem mem_supertypes {data : ClassData} (stored : origin.store.IsClass c.owner data)
    {supertype : Ty} (hs : supertype ∈ data.supertypes) : supertype ∈ c.supertypes := by
  obtain ⟨data', isClass, same⟩ := facts.later.store.isClass stored
  rw [← facts.isClass hc isClass, ClassData.supertypes_eq same]
  exact hs

/-- The members of a class that were listed from the start are those that its result has. -/
theorem declared_eq {members : List DeclId}
    (listed : origin.store.members? c.owner = some members) :
    c.declared = members :=
  Option.some.inj ((facts.listed hc).symm.trans (facts.later.store.listed listed))

end History.Facts

end ClassSymbols
