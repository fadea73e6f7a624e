import ClassSymbols.Proofs.Resolution.Settling

/-!
# Lazy loading

What has been asked of a freshly loaded module decides which classes are found, and when a result is
kept. The result for a class depends on nothing else: if the classes that its resolution consults
are found alike after two sequences of queries, and in each of them from before the first resolution
on, then both give the same effective members and conflicts, up to the ids.

## Main definitions

* `Query`, `Workspace.askAll` — sequences of queries.
* `Workspace.Steady` — whether what a resolution consults is found as before the first resolution.
* `Workspace.view` — effective members by their origins and signatures.

## Main statements

* `view_eq_of_steady` — the result for a class after two sequences of queries.
-/

namespace ClassSymbols

/-! ## Queries -/

/-- What can be asked of a loaded module. -/
inductive Query where
  | members (id : DeclId)
  | path (fragment : LoadedFragment) (path : String)
  | synthesis (id : DeclId)

namespace Workspace

def ask (w : Workspace) : Query → Workspace
  | .members id => w.after (EffectiveM.onStore (classMembers id))
  | .path fragment path => w.after (EffectiveM.onStore (findMemberPath fragment path))
  | .synthesis id => w.after (effectiveSynthesis id)

def askAll (w : Workspace) (queries : List Query) : Workspace := queries.foldl ask w

/-- Whether neither a class nor an ancestor was resolved at some point, and what the resolution
consults was found there as it is later. -/
structure Steady (u w : Workspace) (id : DeclId) : Prop where
  unresolved : ∀ a, Relation.ReflTransGen w.store.Parent id a → u.result? a = none
  found : ∀ k, w.Consults id k → w.store.findClass? k = u.store.findClass? k

/-- The names of effective members, with the origins and the signatures of the members of each
name. -/
def view (w : Workspace) (set : OverrideSet) :
    List (String × List (MemberOrigin × Option Signature)) :=
  set.groups.entries.map fun (name, group) =>
    (name, group.map fun member => (member.origin, w.store.signature? member.id))

theorem view_eq {w w' : Workspace} {f : DeclId → DeclId} {set renamed : OverrideSet}
    (h : set.Renames f renamed)
    (signatures : ∀ x ∈ set.memberIds,
      w'.store.signature? (f x) = (w.store.signature? x).map (Signature.rename f)) :
    w'.view renamed = (w.view set).map fun (name, group) =>
      (name, group.map fun (origin, signature) =>
        (origin, signature.map (Signature.rename f))) := by
  unfold view
  rw [List.map_map, ← forall₂_map_eq, List.forall₂_map_right_iff]
  have groups := (List.forall₂_and_left _ _).2 ⟨fun _ hg => hg, h.groups⟩
  refine groups.imp ?_
  rintro ⟨name, group⟩ ⟨name', group'⟩ ⟨hg, same, renamed⟩
  obtain rfl : name' = name := same
  obtain rfl : group' = group.map (EffectiveMember.rename f) := renamed
  simp only [Function.comp_apply, List.map_map, Prod.mk.injEq, true_and]
  refine List.map_congr_left fun member hm => ?_
  have listed : member.id ∈ set.memberIds :=
    List.mem_map_of_mem (List.mem_flatten_of_mem (List.mem_map_of_mem hg) hm)
  simp [EffectiveMember.rename, signatures _ listed]

end Workspace

/-! ## Histories of queries -/

section Histories

variable {origin w w' : Workspace} {log log' : List Computation} (fresh : origin.Fresh)
include fresh

theorem continues_of_membersIfClass (h : Continues True origin [] log w log' w') {id : DeclId}
    {r : Except SymbolError (List DeclId)} {store : Store}
    (asked : Gives (membersIfClass id) w'.store r store) :
    Continues True origin [] log w log' { w' with store } := by
  rcases membersIfClass_cases asked with read | ⟨-, rfl⟩
  · exact h.read fresh read
  · exact h

theorem continues_of_followPath (h : Continues True origin [] log w log' w') {path : String}
    {found : DeclId} {candidates : List DeclId} {names : List String}
    {r : Except SymbolError DeclId} {store : Store}
    (asked : Gives (followPath path found candidates names) w'.store r store) :
    Continues True origin [] log w log' { w' with store } := by
  induction names generalizing w' found candidates with
  | nil =>
    obtain ⟨-, rfl⟩ := gives_pure_iff.1 asked
    exact h
  | cons name rest ih =>
    have later := gives_get_bind_iff.1 asked
    split at later
    · obtain ⟨-, rfl⟩ := gives_throw_iff.1 later
      exact h
    · rcases gives_bind_iff.1 later with ⟨_, -, failed⟩ | ⟨members, s'', read, further⟩
      · exact continues_of_membersIfClass fresh h failed
      · have read := continues_of_membersIfClass fresh h read
        exact @ih ⟨s'', w'.effective⟩ read _ _ further

/-- Every query continues a history. -/
theorem exists_continues_ask (h : Continues True origin [] log w log' w') (query : Query) :
    ∃ log'', Continues True origin [] log w log'' (w'.ask query) := by
  cases query with
  | members id =>
    obtain ⟨r, asked⟩ := w'.exists_gives_after (EffectiveM.onStore (classMembers id))
    obtain ⟨store, read, e⟩ := gives_onStore_iff.1 asked
    exact ⟨log', by rw [Workspace.ask, e]; exact h.read fresh read⟩
  | path fragment path =>
    obtain ⟨r, asked⟩ := w'.exists_gives_after (EffectiveM.onStore (findMemberPath fragment path))
    obtain ⟨store, read, e⟩ := gives_onStore_iff.1 asked
    exact ⟨log', by rw [Workspace.ask, e]; exact continues_of_followPath fresh h read⟩
  | synthesis id =>
    obtain ⟨r, asked⟩ := w'.exists_gives_after (effectiveSynthesis id)
    obtain ⟨log'', continues, -⟩ := (resolutionRule fresh).effectiveSynthesis asked log' h.history
    exact ⟨log'', h.trans continues⟩

theorem exists_continues_askAll (h : Continues True origin [] log w log' w')
    (queries : List Query) :
    ∃ log'', Continues True origin [] log w log'' (w'.askAll queries) := by
  induction queries generalizing w' log' with
  | nil => exact ⟨log', h⟩
  | cons query rest ih =>
    obtain ⟨log'', h⟩ := exists_continues_ask fresh h query
    exact ih h

end Histories

variable {table : SymbolTable} {module : LoadedModule} {store : Store} {options : SynthesisOptions}

/-- A resolution after some queries ends a run on the module, and what was found before is
settled. -/
theorem exists_run_of_steady (loaded : store.Loaded) {before queries : List Query} {id : DeclId}
    {result : OverrideSynthesis} {w : Workspace}
    (ok : effectiveSynthesis id (((Workspace.initial store options).askAll before).askAll queries) =
      .ok result w)
    (steady : ((Workspace.initial store options).askAll before).Steady w id) :
    ∃ log, Run (.initial store options) log w ∧
      Settled ((Workspace.initial store options).askAll before) w log id ∧
      w.effective.options = options ∧
      ∃ c ∈ log, c.owner = id ∧ c.result = result := by
  have fresh := Workspace.fresh_initial loaded.toSound options
  obtain ⟨log₀, h₀⟩ := exists_continues_askAll fresh (.refl .start) before
  obtain ⟨log₁, h₁⟩ := exists_continues_askAll fresh (.refl h₀.history) queries
  obtain ⟨log, h, answer⟩ :=
    (resolutionRule fresh).effectiveSynthesis (gives_ok_iff.2 ok) log₁ h₁.history
  have run : Run (.initial store options) log w := ⟨fresh, h.history⟩
  have facts₀ := h₀.history.facts fresh
  have described := h₀.history.described fresh loaded.described
  refine ⟨log, run, ⟨facts₀.sound, described.indexed, fun c hc above => ?_, steady.found _⟩,
    run.facts.later.options, answer result rfl⟩
  rcases (h₁.trans h).started c hc with old | later
  · have known := facts₀.result?_eq old
    rw [steady.unresolved c.owner above] at known
    cases known
  · exact later

/-- Let a class be resolved after two sequences of queries on one freshly loaded module. If what the
resolution consults is found alike in the end, and in each sequence was found so at a point before
the class or an ancestor was resolved, then both results have the same names, with the same origins
and signatures for each of them, and the same conflicts. Only ids differ. -/
theorem view_eq_of_steady (loaded : loadAll table .empty = .ok module store)
    (natural : options.relation.Natural) {before before' queries queries' : List Query}
    {id id' : DeclId} {result result' : OverrideSynthesis} {w w' : Workspace}
    (ok : effectiveSynthesis id (((Workspace.initial store options).askAll before).askAll queries) =
      .ok result w)
    (ok' : effectiveSynthesis id'
      (((Workspace.initial store options).askAll before').askAll queries') = .ok result' w')
    (same : Counterpart store.next w.store w'.store id id')
    (steady : ((Workspace.initial store options).askAll before).Steady w id)
    (steady' : ((Workspace.initial store options).askAll before').Steady w' id')
    (alike : ∀ k, w.Consults id k → Option.Rel (Counterpart store.next w.store w'.store)
      (w.store.findClass? k) (w'.store.findClass? k)) :
    ∃ f, Function.Injective f ∧ (∀ x y, Counterpart store.next w.store w'.store x y → f x = y) ∧
      w'.view result'.set = (w.view result.set).map (fun (name, group) =>
        (name, group.map fun (origin, signature) => (origin, signature.map (Signature.rename f)))) ∧
      result'.conflicts = result.conflicts.map (Conflict.rename f) := by
  have loaded := loaded_of_loadAll loaded
  obtain ⟨log, run, settled, options_eq, c, hc, owner, rfl⟩ := exists_run_of_steady loaded ok steady
  obtain ⟨log', run', settled', options_eq', c', hc', owner', rfl⟩ :=
    exists_run_of_steady loaded ok' steady'
  have explored : store.Explored store := ⟨loaded, .refl store, loaded.toSound, loaded.described⟩
  obtain ⟨f, injective, takes⟩ :=
    (pairs_of_counterparts run run' explored explored).exists_renaming run run'
  have settlement :
    Settlement store (.initial store options) (.initial store options) _ _ log log' w w' id id' f :=
    { toAligned := aligned_of_counterparts run run' (run.explored explored) (run'.explored explored)
        (options_eq'.trans options_eq.symm) injective takes
      described := explored.described
      described' := explored.described
      explored := run.explored explored
      settled, settled'
      known' := ⟨c', hc', owner'⟩
      pair := same
      alike := alike _ }
  subst owner owner'
  have above : Relation.ReflTransGen (w.store.Uses (w.SettledSearch c.owner)) c.owner c.owner ∧
      ∃ a', Counterpart store.next w.store w'.store c.owner a' := ⟨.refl, _, same⟩
  have comparison := settlement.accord.comparison (options_eq ▸ natural)
  have renames := comparison.renames run.history (List.Subset.refl _) c hc above c' hc' same
  refine ⟨f, injective, fun x y pair => takes (.pair pair), ?_, renames.conflicts⟩
  exact Workspace.view_eq renames.set fun x hx => comparison.signature?_eq hc hc' above same hx

/-! ## A class that extends a nested class -/

/-- A module in which a class `C` extends `Outer.Inner`, which has a function `f`. -/
def nestedModule : SymbolTable where
  module := "m"
  fragments := .ofList [("p", {
    names := {
      strings := ["Outer", "Inner", "C", "Other", "f", "g"]
      qualifiedNames := [
        { shortName := 0, kind := .classifier },
        { parent := some 0, shortName := 1, kind := .classifier },
        { shortName := 2, kind := .classifier },
        { shortName := 3, kind := .classifier }] }
    types := {}
    classes := [
      { qualifiedName := 0
        nestedClasses := [
          { qualifiedName := 1
            functions := [{ name := 4, returnType := .inline (.mk (.className 3) [] false) }] }] },
      { qualifiedName := 2, supertypes := [.inline (.mk (.className 1) [] false)] },
      { qualifiedName := 3
        functions := [{ name := 5, returnType := .inline (.mk (.className 3) [] false) }] }]
    records := [] })]

/-- Without entries there are no results. -/
theorem Workspace.result?_eq_none {w : Workspace} (empty : w.effective.cache.entries = [])
    (id : DeclId) :
    w.result? id = none := by
  have none (key : DeclId × List Ty) : w.effective.cache.get? key = none :=
    (congrArg (OrderedMap.lookup key) empty :)
  unfold result?
  cases w.store.get? id with
  | none => rfl
  | some declaration => cases declaration.class? <;> simp [none]

theorem Workspace.steady_of_entries_eq {u w : Workspace} (empty : u.effective.cache.entries = [])
    (classes : w.store.classes.entries = u.store.classes.entries) (id : DeclId) :
    u.Steady w id where
  unresolved a _ := result?_eq_none empty a
  found k _ := (congrArg (OrderedMap.lookup k) classes :)

/-- Once the outer class has been read, the function of the nested class is inherited alike,
whatever was asked before. -/
theorem view_eq_of_outer_read :
    ∃ module store result result' w w', loadAll nestedModule .empty = .ok module store ∧
      effectiveSynthesis ⟨4⟩ (((Workspace.initial store {}).askAll [.members ⟨3⟩]).askAll []) =
        .ok result w ∧
      effectiveSynthesis ⟨4⟩
          (((Workspace.initial store {}).askAll [.members ⟨5⟩, .members ⟨3⟩]).askAll
            [.synthesis ⟨7⟩]) = .ok result' w' ∧
      result.set.groups.keys = ["f"] ∧
      ∃ f, Function.Injective f ∧ (∀ x y, Counterpart store.next w.store w'.store x y → f x = y) ∧
        w'.view result'.set = (w.view result.set).map (fun (name, group) =>
          (name, group.map fun (origin, signature) =>
            (origin, signature.map (Signature.rename f)))) ∧
        result'.conflicts = result.conflicts.map (Conflict.rename f) := by
  let outer : ClassId := ⟨"", "Outer", false⟩
  let heir : ClassId := ⟨"", "C", false⟩
  let other : ClassId := ⟨"", "Other", false⟩
  let inner : ClassId := ⟨"", "Outer.Inner", false⟩
  have computed : (match loadAll nestedModule .empty with
      | .ok _ store =>
        let u := (Workspace.initial store {}).askAll [.members ⟨3⟩]
        let u' := (Workspace.initial store {}).askAll [.members ⟨5⟩, .members ⟨3⟩]
        match effectiveSynthesis ⟨4⟩ (u.askAll []),
          effectiveSynthesis ⟨4⟩ (u'.askAll [.synthesis ⟨7⟩]) with
        | .ok result w, .ok _ w' =>
          decide (store.next = ⟨6⟩ ∧ result.set.groups.keys = ["f"] ∧
            u.effective.cache.size = 0 ∧ u'.effective.cache.size = 0 ∧
            w.store.classes.entries = u.store.classes.entries ∧
            w'.store.classes.entries = u'.store.classes.entries ∧
            w.store.members? ⟨3⟩ = some [⟨6⟩] ∧ w'.store.members? ⟨3⟩ = some [⟨7⟩] ∧
            w.store.classes.entries = [(outer, ⟨3⟩), (heir, ⟨4⟩), (other, ⟨5⟩), (inner, ⟨6⟩)] ∧
            w'.store.classes.entries = [(outer, ⟨3⟩), (heir, ⟨4⟩), (other, ⟨5⟩), (inner, ⟨7⟩)])
        | _, _ => false
      | .error _ _ => false) = true := by decide +kernel
  cases loaded : loadAll nestedModule .empty with
  | error e store => simp [loaded] at computed
  | ok module store =>
    rw [loaded] at computed
    dsimp only at computed
    split at computed
    · next result w result' w' ok ok' =>
      obtain ⟨next, keys, empty, empty', classes, classes', listed, listed', entries, entries'⟩ :=
        of_decide_eq_true computed
      have low {id : DeclId} (h : id.number < 6) : Counterpart store.next w.store w'.store id id :=
        .shared (by rw [next]; exact h)
      have nested : Counterpart store.next w.store w'.store ⟨6⟩ ⟨7⟩ :=
        .member (low (by decide)) listed listed' (i := 0) rfl rfl
      have alike : w.store.classes.Related id (Counterpart store.next w.store w'.store)
          w'.store.classes := by
        rw [OrderedMap.Related, entries, entries']
        exact .cons ⟨rfl, low (by decide)⟩ (.cons ⟨rfl, low (by decide)⟩
          (.cons ⟨rfl, low (by decide)⟩ (.cons ⟨rfl, nested⟩ .nil)))
      refine ⟨module, store, result, result', w, w', rfl, ok, ok', keys, ?_⟩
      exact view_eq_of_steady loaded (RelationKind.natural default) ok ok' (low (by decide))
        (Workspace.steady_of_entries_eq (List.length_eq_zero_iff.1 empty) classes _)
        (Workspace.steady_of_entries_eq (List.length_eq_zero_iff.1 empty') classes' _)
        fun k _ => alike.get? Function.injective_id k
    · cases computed

/-- The names of effective members depend on what was read before: a nested class is not found until
the members of its outer class are read. -/
theorem not_forall_names_eq : ¬∀ (table : SymbolTable) (module : LoadedModule) (store : Store)
    (options : SynthesisOptions) (queries queries' : List Query) (id : DeclId)
    (result result' : OverrideSynthesis)
    (w w' : Workspace), loadAll table .empty = .ok module store →
    effectiveSynthesis id ((Workspace.initial store options).askAll queries) = .ok result w →
    effectiveSynthesis id ((Workspace.initial store options).askAll queries') = .ok result' w' →
    result'.set.groups.keys = result.set.groups.keys := by
  intro alike
  have computed : (match loadAll nestedModule .empty with
      | .ok _ store =>
        match effectiveSynthesis ⟨4⟩ ((Workspace.initial store {}).askAll []),
          effectiveSynthesis ⟨4⟩ ((Workspace.initial store {}).askAll [.members ⟨3⟩]) with
        | .ok result _, .ok result' _ => decide (result'.set.groups.keys ≠ result.set.groups.keys)
        | _, _ => false
      | .error _ _ => false) = true := by decide +kernel
  cases loaded : loadAll nestedModule .empty with
  | error e store => simp [loaded] at computed
  | ok module store =>
    rw [loaded] at computed
    dsimp only at computed
    split at computed
    · next result w result' w' ok ok' =>
      exact of_decide_eq_true computed (alike _ _ _ _ _ _ _ _ _ _ _ loaded ok ok')
    · cases computed

end ClassSymbols
