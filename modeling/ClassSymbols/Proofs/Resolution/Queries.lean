import ClassSymbols.Proofs.Resolution.History

/-!
# Queries continue histories

A query computes the results that it needs, and keeps each of them. So the workspace that it leaves
has a history that continues the one before, whether the query succeeds or fails.

## Main statements

* `exists_history` — every query continues the history of its workspace.
-/

namespace ClassSymbols

/-! ## Computing one result -/

/-- A computation reads the members of its class and fails, or gives a result and keeps it. -/
theorem gives_computeFrom_cases {id : DeclId} {data : ClassData} {members : List SupertypeMembers}
    {w w' : Workspace} {r : Except SymbolError OverrideSynthesis}
    (h : Gives (computeFrom id data members) w r w') :
    (∃ e r₁ store, r = .error e ∧ Gives (classMembers id) w.store r₁ store ∧
      w' = { w with store }) ∨
      ∃ declared store synthesis after, Gives (classMembers id) w.store (.ok declared) store ∧
        synthesizeWith w.effective.options (w.effective.lookup store) id declared members store =
          .ok synthesis after ∧
        r = .ok { synthesis with pending := [] } ∧
        w' = ⟨after.insertAll synthesis.pending,
          w.effective.keep id data.supertypes { synthesis with pending := [] }⟩ := by
  rcases gives_bind_iff.1 h with ⟨e, rfl, failed⟩ | ⟨declared, w₁, read, h⟩
  · obtain ⟨store, asked, rfl⟩ := gives_onStore_iff.1 failed
    exact .inl ⟨e, _, store, rfl, asked, rfl⟩
  obtain ⟨store, asked, rfl⟩ := gives_onStore_iff.1 read
  rcases gives_bind_iff.1 (gives_get_bind_iff.1 h) with ⟨e, rfl, failed⟩ | ⟨synthesis, w₂, made, h⟩
  · obtain ⟨after, unmade, rfl⟩ := gives_onStore_iff.1 failed
    obtain rfl := synthesizeWith_eq_error (gives_error_iff.1 unmade)
    exact .inl ⟨_, _, _, rfl, asked, rfl⟩
  obtain ⟨after, run, rfl⟩ := gives_onStore_iff.1 made
  refine .inr ⟨declared, store, synthesis, after, asked, gives_ok_iff.1 run, ?_⟩
  cases r with
  | ok result =>
    obtain ⟨e, e'⟩ := EStateM.Result.ok.inj (gives_ok_iff.1 h)
    exact ⟨congrArg _ e.symm, e'.symm⟩
  | error e => cases gives_error_iff.1 h

/-! ## Continued histories -/

variable {loads : Prop} {origin : Workspace}

/-- Whether a history is continued, without results of the classes that are being resolved. -/
structure Continues (loads : Prop) (origin : Workspace) (visiting : List DeclId)
    (log : List Computation) (w : Workspace) (log' : List Computation) (w' : Workspace) : Prop where
  history : History loads origin log' w'
  suffix : log <:+ log'
  later : w.LeadsTo w'
  started : ∀ c ∈ log', c ∈ log ∨ w.LeadsTo c.start
  visiting : ∀ c ∈ log', c.owner ∈ visiting → c ∈ log

namespace Continues

variable {visiting : List DeclId} {log log' log'' : List Computation} {w w' w'' : Workspace}

theorem refl (h : History loads origin log w) : Continues loads origin visiting log w log w :=
  ⟨h, List.suffix_refl _, .refl _, fun _ hc => .inl hc, fun _ hc _ => hc⟩

theorem trans (h : Continues loads origin visiting log w log' w')
    (g : Continues loads origin visiting log' w' log'' w'') :
    Continues loads origin visiting log w log'' w'' :=
  ⟨g.history, h.suffix.trans g.suffix, h.later.trans g.later,
    fun c hc => (g.started c hc).elim (h.started c) fun later => .inr (h.later.trans later),
    fun c hc hv => h.visiting c (g.visiting c hc hv) hv⟩

theorem of_cons {id : DeclId} (h : Continues loads origin (id :: visiting) log w log' w') :
    Continues loads origin visiting log w log' w' :=
  ⟨h.history, h.suffix, h.later, h.started,
    fun c hc hv => h.visiting c hc (List.mem_cons_of_mem _ hv)⟩

theorem read (fresh : origin.Fresh) (h : Continues loads origin visiting log w log' w')
    {id : DeclId} {r : Except SymbolError (List DeclId)} {store : Store}
    (asked : Gives (classMembers id) w'.store r store) :
    Continues loads origin visiting log w log' { w' with store } := by
  obtain ⟨-, evolves, -⟩ := classMembers_evolves (h.history.facts fresh).sound asked
  exact ⟨h.history.read asked, h.suffix, h.later.trans (.of_evolves evolves), h.started, h.visiting⟩

theorem load (fresh : origin.Fresh) (h : Continues True origin visiting log w log' w')
    {next : DeclId} {declarations : List Declaration} (batch : w'.store.Batch next declarations) :
    Continues True origin visiting log w log'
      { w' with store := w'.store.receive next declarations } := by
  have evolves := batch.evolves (h.history.facts fresh).sound.toWellFormed
  exact ⟨h.history.load trivial batch, h.suffix, h.later.trans (.of_evolves evolves), h.started,
    h.visiting⟩

end Continues

/-- What a resolution of a class leaves: a history with the result. -/
def Resolves (loads : Prop) (origin : Workspace) (visiting : List DeclId) (w : Workspace)
    (id : DeclId) (r : Except SymbolError OverrideSynthesis) (w' : Workspace) : Prop :=
  ∀ log, History loads origin log w → ∃ log', Continues loads origin visiting log w log' w' ∧
    ∀ synthesis, r = .ok synthesis → ∃ c ∈ log', c.owner = id ∧ c.result = synthesis

/-- What a resolution of supertypes leaves: a history with their results. -/
def ResolvesAll (loads : Prop) (origin : Workspace) (visiting : List DeclId) (w : Workspace)
    (supertypes : List Ty) (r : Except SymbolError (List SupertypeMembers)) (w' : Workspace) :
    Prop :=
  ∀ log, History loads origin log w → ∃ log', Continues loads origin visiting log w log' w' ∧
    ∀ members, r = .ok members → ∃ owners, List.Forall₂ (FoundBetween w w') supertypes owners ∧
      members.map (fun m => (m.supertype, m.owner)) =
        ((supertypes.zip owners).filterMap fun (supertype, owner) => owner.map (supertype, ·)) ∧
      ∀ m ∈ members, ∃ c ∈ log', c.owner = m.owner ∧ c.synthesis.set.memberIds = m.members

theorem FoundBetween.widen {w w' u u' : Workspace} (h : u.LeadsTo w) (h' : w'.LeadsTo u')
    {supertype : Ty} {owner : Option DeclId} (found : FoundBetween w w' supertype owner) :
    FoundBetween u u' supertype owner := by
  obtain ⟨v, before, after, e⟩ := found
  exact ⟨v, h.trans before, after.trans h', e⟩

section Computed

variable (fresh : origin.Fresh) {visiting : List DeclId} {w w₁ w' : Workspace} {id : DeclId}
  {data : ClassData} {members : List SupertypeMembers} {r : Except SymbolError OverrideSynthesis}
include fresh

/-- A result that is computed from the results of the supertypes follows from a history that has
them. -/
theorem resolves_of_computeFrom (stored : w.store.IsClass id data)
    (miss : w.effective.cache.get? (id, data.supertypes) = none) (free : id ∉ visiting)
    (supers : ResolvesAll loads origin (id :: visiting) w data.supertypes (.ok members) w₁)
    (made : Gives (computeFrom id data members) w₁ r w') :
    Resolves loads origin visiting w id r w' := by
  intro log history
  obtain ⟨log₁, continues, resolved⟩ := supers log history
  obtain ⟨owners, found, matched, offered⟩ := resolved members rfl
  rcases gives_computeFrom_cases made with
    ⟨e, _, store, rfl, asked, rfl⟩ | ⟨declared, store, synthesis, after, asked, run, rfl, rfl⟩
  · exact ⟨log₁, (continues.read fresh asked).of_cons, fun _ h => by cases h⟩
  have continues' := continues.read fresh asked
  obtain ⟨-, -, listed⟩ := classMembers_evolves (continues.history.facts fresh).sound asked
  have facts := continues'.history.facts fresh
  obtain ⟨data', isClass, same⟩ := continues'.later.store.isClass stored
  have supertypes : data'.supertypes = data.supertypes := ClassData.supertypes_eq same
  have new : w₁.effective.cache.get? (id, data.supertypes) = none := by
    by_contra known
    obtain ⟨result, known⟩ := Option.ne_none_iff_exists'.1 known
    obtain ⟨c, hc, key, -⟩ := facts.cached_iff.1 known
    obtain ⟨owner, supers⟩ := Prod.mk.inj key
    have old := continues'.visiting c hc (by simp [owner])
    have kept := (history.facts fresh).cached_iff.2 ⟨c, old, key, rfl⟩
    simp [miss] at kept
  let c : Computation :=
    { start := w, before := ⟨store, w₁.effective⟩, owner := id, supertypes := data.supertypes,
      owners, declared, members, synthesis, after }
  have widen : w₁.LeadsTo c.before :=
    ((Continues.refl continues.history : Continues loads origin [] _ _ _ _).read fresh asked).later
  have follows : c.Follows origin log₁ :=
    { run
      isClass := ⟨data', isClass, supertypes⟩
      listed := listed declared rfl
      new
      started := (history.facts fresh).later
      resolved := continues'.later
      answers := found.imp fun _ _ h => h.widen (.refl w) widen
      matched
      offered }
  have facts' := facts.compute follows continues'.history
  refine ⟨c :: log₁, ⟨continues'.history.compute follows, ?_, ?_, ?_, ?_⟩, fun _ e => ?_⟩
  · exact continues'.suffix.trans (List.suffix_cons _ _)
  · exact continues'.later.trans (facts'.finished c List.mem_cons_self).1
  · rintro other (_ | ⟨_, hc⟩)
    · exact .inr (.refl w)
    · exact continues'.started other hc
  · rintro other (_ | ⟨_, hc⟩) hv
    · exact absurd hv free
    · exact continues'.visiting other hc (List.mem_cons_of_mem _ hv)
  · exact ⟨c, List.mem_cons_self, rfl, Except.ok.inj e⟩

/-- Resolutions continue histories. -/
theorem resolutionRule : ResolutionRule (Resolves loads origin) (ResolvesAll loads origin) where
  failed log history := ⟨log, .refl history, fun _ h => by cases h⟩
  kept {_ _ _ data synthesis} _ known log history := by
    obtain ⟨c, hc, key, result⟩ := (history.facts fresh).cached_iff.1 known
    refine ⟨log, .refl history, fun _ e => ⟨c, hc, (Prod.mk.inj key).1, ?_⟩⟩
    exact result.trans (Except.ok.inj e)
  blocked _ _ _ supers log history := by
    obtain ⟨log', continues, -⟩ := supers log history
    exact ⟨log', continues.of_cons, fun _ h => by cases h⟩
  computed stored miss free supers made :=
    resolves_of_computeFrom fresh stored miss free supers made
  none log history := by
    refine ⟨log, .refl history, fun members e => ⟨[], .nil, ?_⟩⟩
    obtain rfl := Except.ok.inj e
    simp
  skipped {visiting w supertype rest r w'} search others log history := by
    obtain ⟨log', continues, resolved⟩ := others log history
    refine ⟨log', continues, fun members e => ?_⟩
    obtain ⟨owners, found, matched, offered⟩ := resolved members e
    exact ⟨none :: owners, .cons ⟨w, .refl w, continues.later, search⟩ found,
      by simpa using matched, offered⟩
  stopped search first log history := by
    obtain ⟨log', continues, -⟩ := first log history
    exact ⟨log', continues, fun _ h => by cases h⟩
  halted search first others log history := by
    obtain ⟨log₁, continues, -⟩ := first log history
    obtain ⟨log', continues', -⟩ := others log₁ continues.history
    exact ⟨log', continues.trans continues', fun _ h => by cases h⟩
  found {visiting w supertype rest owner synthesis w₁ members w'} search first others log
    history := by
    obtain ⟨log₁, continues, resolved⟩ := first log history
    obtain ⟨log', continues', resolved'⟩ := others log₁ continues.history
    obtain ⟨c, hc, owned, result⟩ := resolved synthesis rfl
    obtain ⟨owners, found, matched, offered⟩ := resolved' members rfl
    refine ⟨log', continues.trans continues', fun _ e => ?_⟩
    obtain rfl := Except.ok.inj e
    refine ⟨some owner :: owners,
      .cons ?_ (found.imp fun _ _ h => h.widen continues.later (.refl w')), ?_, ?_⟩
    · exact ⟨w, .refl w, continues.later.trans continues'.later, search⟩
    · simpa using matched
    · rintro m (_ | ⟨_, hm⟩)
      · exact ⟨c, continues'.suffix.subset hc, owned, result ▸ rfl⟩
      · exact offered m hm

/-- Every query continues the history of its workspace. If it succeeds, its answer is in the
history. -/
theorem exists_history {log : List Computation} (history : History loads origin log w)
    (h : Gives (effectiveSynthesis id) w r w') :
    ∃ log', History loads origin log' w' ∧ w.LeadsTo w' ∧
      (∀ c ∈ log', c ∈ log ∨ w.LeadsTo c.start) ∧
      ∀ synthesis, r = .ok synthesis → ∃ c ∈ log', c.owner = id ∧ c.result = synthesis := by
  obtain ⟨log', continues, resolved⟩ := (resolutionRule fresh).effectiveSynthesis h log history
  exact ⟨log', continues.history, continues.later, continues.started, resolved⟩

end Computed

end ClassSymbols
