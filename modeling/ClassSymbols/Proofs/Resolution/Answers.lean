import ClassSymbols.Proofs.Resolution.Commits
import ClassSymbols.Proofs.Resolution.Hierarchy
import ClassSymbols.Proofs.Store.Filling

/-!
# Answers about classes

What can be asked about a class is answered from its result: the result itself, its set, or the
scope of its set. In every state that questions lead to, with failures or without, the results are
committed. A question that fails other than by conflicts adds nothing for its class, and a question
about a class that has a result changes nothing and has the same answer from then on.

## Main definitions

* `ClassQuery`, `ClassQuery.ask` — what can be asked about a class.
* `ClassQuery.answer` — the answer that follows from the result of the class.
* `Workspace.afterAll` — the state after a sequence of questions.

## Main statements

* `Workspace.Committed.ask` — what a question leaves.
* `committed_afterAll` — the states that questions lead to.
-/

namespace ClassSymbols

/-- What can be asked about a class. -/
inductive ClassQuery where
  | declared (id : DeclId)
  | synthesis (id : DeclId)
  | members (id : DeclId)
  | scope (id : DeclId)

/-- What is answered. -/
inductive Answer where
  | declared (members : List DeclId)
  | synthesis (result : OverrideSynthesis)
  | members (set : OverrideSet)
  | scope (scope : MemberScope)

def Answer.unread : Answer → Answer
  | .scope found => .scope ⟨found.declarations.map (·.unread)⟩
  | answer => answer

/-- The set of a result without conflicts. -/
def OverrideSynthesis.checked (result : OverrideSynthesis) (store : Store) :
    Except SymbolError OverrideSet :=
  if result.hasConflicts then .error (result.conflictError store) else .ok result.set

theorem OverrideSynthesis.checked_cases (result : OverrideSynthesis) (store : Store) :
    result.checked store = .error (result.conflictError store) ∨
      result.checked store = .ok result.set := by
  unfold checked
  cases result.hasConflicts <;> simp

theorem OverrideSynthesis.checked_eq_ok_iff {result : OverrideSynthesis} {store : Store}
    {set : OverrideSet} :
    result.checked store = .ok set ↔ result.hasConflicts = false ∧ result.set = set := by
  unfold checked
  cases result.hasConflicts <;> simp

namespace ClassQuery

def id : ClassQuery → DeclId
  | declared id | synthesis id | members id | scope id => id

def ask : ClassQuery → EffectiveM Answer
  | declared id => .declared <$> EffectiveM.onStore (classMembers id)
  | synthesis id => .synthesis <$> effectiveSynthesis id
  | members id => .members <$> effectiveMembers id
  | scope id => .scope <$> effectiveScope id

def answer (store : Store) (result : OverrideSynthesis) : ClassQuery → Except SymbolError Answer
  | declared id => .ok (.declared ((store.members? id).getD []))
  | synthesis _ => .ok (.synthesis result)
  | members _ => (result.checked store).map .members
  | scope _ => (result.checked store >>= MemberScope.ofSet store).map .scope

end ClassQuery

def Workspace.afterAll (w : Workspace) (queries : List ClassQuery) : Workspace :=
  queries.foldl (fun w query => w.after query.ask) w

/-! ## Answers from results -/

section Answers

variable {w w' : Workspace} {id : DeclId} {r : Except SymbolError OverrideSynthesis}

theorem gives_effectiveMembers (h : Gives (effectiveSynthesis id) w r w') :
    Gives (effectiveMembers id) w (r >>= (·.checked w'.store)) w' := by
  cases r with
  | error e => exact gives_bind_iff.2 (.inl ⟨e, rfl, h⟩)
  | ok result =>
    refine gives_bind_iff.2 (.inr ⟨result, w', h, ?_⟩)
    change Gives _ w' (result.checked w'.store) w'
    unfold OverrideSynthesis.checked
    cases found : result.hasConflicts
    · exact gives_pure_iff.2 ⟨rfl, rfl⟩
    · rfl

theorem gives_effectiveScope (h : Gives (effectiveSynthesis id) w r w') :
    Gives (effectiveScope id) w (r >>= (·.checked w'.store) >>= MemberScope.ofSet w'.store) w' := by
  have members := gives_effectiveMembers h
  revert members
  cases r >>= (·.checked w'.store) with
  | error e => exact fun members => gives_bind_iff.2 (.inl ⟨e, rfl, members⟩)
  | ok set =>
    refine fun members => gives_bind_iff.2 (.inr ⟨set, w', members, ?_⟩)
    exact gives_onStore_iff.2 ⟨w'.store, gives_reading_iff.2 ⟨rfl, rfl⟩, rfl⟩

/-- A class that is resolved without conflicts has a scope. -/
theorem gives_effectiveScope_of_clean {result : OverrideSynthesis} {scope : MemberScope}
    (resolved : Gives (effectiveSynthesis id) w (.ok result) w')
    (clean : result.hasConflicts = false)
    (found : MemberScope.ofSet w'.store result.set = .ok scope) :
    Gives (effectiveScope id) w (.ok scope) w' := by
  have checked : result.checked w'.store = .ok result.set :=
    OverrideSynthesis.checked_eq_ok_iff.2 ⟨clean, rfl⟩
  have gives := gives_effectiveScope resolved
  simp only [bind, Except.bind, checked, found] at gives
  exact gives

/-- A question about the effective members of a class is answered from a result, or fails with the
resolution. -/
theorem ClassQuery.gives_ask (query : ClassQuery) (resolves : ∀ id, query ≠ .declared id)
    (h : Gives (effectiveSynthesis query.id) w r w') :
    Gives query.ask w (r >>= fun result => query.answer w'.store result) w' := by
  cases query with
  | declared id => exact absurd rfl (resolves id)
  | synthesis id =>
    have asked := h.map Answer.synthesis
    cases r <;> exact asked
  | members id =>
    have asked := (gives_effectiveMembers h).map Answer.members
    cases r <;> exact asked
  | scope id =>
    have asked := (gives_effectiveScope h).map Answer.scope
    cases r <;> exact asked

/-- A question reads the members of its class, or resolves it. -/
theorem ClassQuery.gives_ask_cases (query : ClassQuery) {r : Except SymbolError Answer}
    (gives : Gives query.ask w r w') :
    (∃ r₁ store, Gives (classMembers query.id) w.store r₁ store ∧ w' = { w with store }) ∨
      ∃ r₁, Gives (effectiveSynthesis query.id) w r₁ w' := by
  by_cases read : ∃ id, query = .declared id
  · obtain ⟨id, rfl⟩ := read
    obtain ⟨r₁, w₁, asked⟩ := exists_gives (EffectiveM.onStore (classMembers id)) w
    obtain ⟨-, rfl⟩ := gives.unique (asked.map Answer.declared)
    obtain ⟨store, reads, rfl⟩ := gives_onStore_iff.1 asked
    exact .inl ⟨r₁, store, reads, rfl⟩
  · obtain ⟨r₁, w₁, resolved⟩ := exists_gives (effectiveSynthesis query.id) w
    obtain ⟨-, rfl⟩ := gives.unique (query.gives_ask (fun id e => read ⟨id, e⟩) resolved)
    exact .inr ⟨r₁, resolved⟩

/-- Members that are known are the answer. -/
theorem gives_classMembers_of_known {s : Store} {members : List DeclId}
    (known : s.members? id = some members) :
    Gives (classMembers id) s (.ok members) s := by
  obtain ⟨data, ⟨declaration, stored, hc⟩, known⟩ := Store.members?_eq_some_iff.1 known
  refine gives_bind_iff.2 (.inr ⟨declaration, s, gives_reading_iff.2 ⟨?_, rfl⟩, ?_⟩)
  · exact (Store.resolve_eq_ok_iff.2 stored).symm
  cases hm : data.members with
  | eager listed =>
    rw [hm] at known
    obtain rfl := Option.some.inj known
    simp only [hc, hm]
    exact gives_pure_iff.2 ⟨rfl, rfl⟩
  | deferred reading =>
    rw [hm] at known
    have known : reading.loaded = some members := known
    simp only [hc, hm, known]
    exact gives_pure_iff.2 ⟨rfl, rfl⟩

/-- A result that is kept is the answer, whatever is being resolved. -/
theorem gives_resolveWithin_of_kept {room : Nat} {visiting : List DeclId} {data : ClassData}
    {result : OverrideSynthesis} (stored : w.store.IsClass id data)
    (kept : w.effective.cache.get? (id, data.supertypes) = some result) :
    Gives (resolveWithin room visiting id) w (.ok result) w := by
  obtain ⟨declaration, stored, hc⟩ := stored
  have request : w.request visiting id = .ok (.kept result) := by
    simp [Workspace.request, Store.resolve_eq_ok_iff.2 stored, hc, kept, bind, Except.bind, pure,
      Except.pure]
  unfold resolveWithin
  refine gives_bind_iff.2 (.inr ⟨w, w, gives_get_iff.2 ⟨rfl, rfl⟩, ?_⟩)
  rw [request]
  exact gives_pure_iff.2 ⟨rfl, rfl⟩

/-- A result that is kept is the answer. -/
theorem gives_effectiveSynthesis_of_kept {data : ClassData} {result : OverrideSynthesis}
    (stored : w.store.IsClass id data)
    (kept : w.effective.cache.get? (id, data.supertypes) = some result) :
    Gives (effectiveSynthesis id) w (.ok result) w := gives_resolveWithin_of_kept stored kept

end Answers

/-! ## Answers in growing stores -/

section Growing

variable {s t : Store} (grows : s.Grows t) {result : OverrideSynthesis} {id : DeclId}
  {supertypes : List Ty}

theorem Declaration.render_unread (declaration : Declaration) :
    declaration.unread.render = declaration.render := by
  obtain ⟨id, name, container, annotations, origin, kind⟩ := declaration
  cases kind <;> rfl

/-- The declarations of a scope are those that are stored for the members. -/
theorem MemberScope.ofIds_eq {ids : List DeclId} (stored : ∀ x ∈ ids, (s.get? x).isSome) :
    MemberScope.ofIds s ids = .ok ⟨ids.filterMap s.get?⟩ := by
  have found : ids.mapM s.resolve = .ok (ids.filterMap s.get?) := by
    induction ids with
    | nil => rfl
    | cons x rest ih =>
      obtain ⟨d, hd⟩ := Option.isSome_iff_exists.1 (stored x List.mem_cons_self)
      have later := ih fun y hy => stored y (List.mem_cons_of_mem _ hy)
      simp [List.mapM_cons, Store.resolve_eq_ok_iff.2 hd, later, hd, bind, Except.bind, pure,
        Except.pure]
  simp [ofIds, found, bind, Except.bind, pure, Except.pure]

include grows

theorem Store.Grows.map_get?_eq {α : Type} {f : Declaration → α}
    (blind : ∀ d : Declaration, f d.unread = f d) {x : DeclId} (stored : (s.get? x).isSome) :
    (t.get? x).map f = (s.get? x).map f := by
  obtain ⟨d, hd⟩ := Option.isSome_iff_exists.1 stored
  obtain ⟨d', hd', same⟩ := grows.kept hd
  rw [hd, hd', Option.map_some, Option.map_some, Declaration.congr_unread blind same]

theorem Store.Grows.signatureText_eq {x : DeclId} (stored : (s.get? x).isSome) :
    t.signatureText x = s.signatureText x := by
  have text (u : Store) : u.signatureText x = ((u.get? x).map (·.render)).getD x.display := by
    unfold Store.signatureText
    cases u.get? x <;> rfl
  rw [text, text, grows.map_get?_eq Declaration.render_unread stored]

/-- The error that reports the conflicts of a committed result stays the same. -/
theorem OverrideSynthesis.Committed.conflictError_eq (h : result.Committed s id supertypes) :
    result.conflictError t = result.conflictError s := by
  obtain ⟨data, ⟨d, stored, -⟩, -⟩ := h.isClass
  have owned : (s.get? result.set.owner).isSome := by
    rw [h.owner]
    exact Option.isSome_of_mem stored
  have error (u : Store) : result.conflictError u = .overrideConflict
      (((u.get? result.set.owner).map (·.name)).getD result.set.owner.display)
      (result.conflicts.map (·.report u)) := by
    unfold conflictError
    cases u.get? result.set.owner <;> rfl
  have reports : result.conflicts.map (·.report t) = result.conflicts.map (·.report s) := by
    refine List.map_congr_left fun conflict hc => ?_
    obtain ⟨first, second⟩ := h.conflicting conflict hc
    simp only [Conflict.report, grows.signatureText_eq first, grows.signatureText_eq second]
  rw [error, error, reports, grows.map_get?_eq Declaration.name_unread owned]

/-- The answers that follow from a committed result stay the same, up to notes of what has been
read. -/
theorem OverrideSynthesis.Committed.answer_eq {query : ClassQuery}
    (h : result.Committed s query.id supertypes) :
    (query.answer t result).map Answer.unread = (query.answer s result).map Answer.unread := by
  have checked : result.checked t = result.checked s := by
    simp only [OverrideSynthesis.checked, h.conflictError_eq grows]
  cases query with
  | declared id =>
    obtain ⟨members, known⟩ := h.listed
    have known : s.members? id = some members := known
    simp only [ClassQuery.answer, known, grows.listed known]
  | synthesis id => rfl
  | members id => simp only [ClassQuery.answer, checked]
  | scope id =>
    have stored := h.members
    have found : (result.set.memberIds.filterMap t.get?).map Declaration.unread =
        (result.set.memberIds.filterMap s.get?).map Declaration.unread := by
      rw [List.map_filterMap, List.map_filterMap]
      exact List.filterMap_congr fun x hx =>
        grows.map_get?_eq Declaration.unread_unread (stored x hx)
    have before := MemberScope.ofIds_eq stored
    have after := MemberScope.ofIds_eq fun x hx => grows.isSome (stored x hx)
    rcases result.checked_cases s with failed | ok
    · simp [ClassQuery.answer, checked, failed, bind, Except.bind, Except.map]
    · simp [ClassQuery.answer, checked, ok, bind, Except.bind, Except.map, MemberScope.ofSet,
        before, after, Answer.unread, found]

end Growing

/-! ## States -/

/-- The answer that follows from a committed result is no failure, unless there are conflicts. -/
theorem OverrideSynthesis.Committed.eq_overrideConflict {s : Store} {result : OverrideSynthesis}
    {supertypes : List Ty} {query : ClassQuery} {e : SymbolError}
    (h : result.Committed s query.id supertypes) (failed : query.answer s result = .error e) :
    ∃ name reports, e = .overrideConflict name reports := by
  cases query with
  | declared id => cases failed
  | synthesis id => cases failed
  | members id =>
    rcases result.checked_cases s with conflict | ok
    · simp only [ClassQuery.answer, conflict, Except.map] at failed
      exact ⟨_, _, (Except.error.inj failed).symm⟩
    · simp [ClassQuery.answer, ok, Except.map] at failed
  | scope id =>
    have found := MemberScope.ofIds_eq h.members
    rcases result.checked_cases s with conflict | ok
    · simp only [ClassQuery.answer, conflict, bind, Except.bind, Except.map] at failed
      exact ⟨_, _, (Except.error.inj failed).symm⟩
    · simp [ClassQuery.answer, ok, bind, Except.bind, Except.map, MemberScope.ofSet, found]
        at failed

namespace Workspace

variable {w w' : Workspace} {query : ClassQuery} {r : Except SymbolError Answer}

/-- A question keeps all results committed. If it fails other than by conflicts, nothing is added
for its class. -/
theorem Committed.ask (h : w.Committed) (gives : Gives query.ask w r w') :
    w'.Committed ∧ w.Advances w' [] ∧ ∀ e, r = .error e →
      (∀ name reports, e ≠ .overrideConflict name reports) → w.Spares w' query.id := by
  by_cases read : ∃ id, query = .declared id
  · obtain ⟨id, rfl⟩ := read
    obtain ⟨r', w₁, asked⟩ := exists_gives (EffectiveM.onStore (classMembers id)) w
    obtain ⟨-, rfl⟩ := gives.unique (asked.map Answer.declared)
    obtain ⟨store, reads, rfl⟩ := gives_onStore_iff.1 asked
    obtain ⟨committed, advances⟩ := h.read reads [id]
    exact ⟨committed, advances.of_cons, fun _ _ _ => advances.spares id List.mem_cons_self⟩
  have resolves (id : DeclId) : query ≠ .declared id := fun e => read ⟨id, e⟩
  obtain ⟨r', w₁, resolved⟩ := exists_gives (effectiveSynthesis query.id) w
  obtain ⟨rfl, rfl⟩ := gives.unique (query.gives_ask resolves resolved)
  have resolution := h.resolution resolved
  refine ⟨resolution.committed, resolution.advances, fun e failed plain => ?_⟩
  cases r' with
  | error e' => exact resolution.spares e' rfl
  | ok result =>
    obtain ⟨supertypes, kept⟩ := resolution.answered result rfl
    obtain ⟨name, reports, rfl⟩ := (resolution.committed.results kept).eq_overrideConflict failed
    exact absurd rfl (plain name reports)

/-- A sequence of questions keeps all results committed. -/
theorem Committed.afterAll (h : w.Committed) (queries : List ClassQuery) :
    (w.afterAll queries).Committed ∧ w.Advances (w.afterAll queries) [] := by
  induction queries generalizing w with
  | nil => exact ⟨h, .refl w []⟩
  | cons query rest ih =>
    obtain ⟨r, gives⟩ := w.exists_gives_after query.ask
    obtain ⟨committed, step, -⟩ := h.ask gives
    obtain ⟨committed', later⟩ := ih committed
    exact ⟨committed', step.trans later⟩

/-- A question about a class that has a result changes nothing. -/
theorem Committed.gives_ask_of_kept (h : w.Committed) {supertypes : List Ty}
    {result : OverrideSynthesis}
    (kept : w.effective.cache.get? (query.id, supertypes) = some result) :
    Gives query.ask w (query.answer w.store result) w := by
  have committed := h.results kept
  by_cases read : ∃ id, query = .declared id
  · obtain ⟨id, rfl⟩ := read
    obtain ⟨members, known⟩ := committed.listed
    have known : w.store.members? id = some members := known
    have asked : Gives (EffectiveM.onStore (classMembers id)) w (.ok members) w :=
      gives_onStore_iff.2 ⟨w.store, gives_classMembers_of_known known, rfl⟩
    simp only [ClassQuery.answer, known]
    exact asked.map Answer.declared
  · obtain ⟨data, stored, rfl⟩ := committed.isClass
    exact query.gives_ask (fun id e => read ⟨id, e⟩) (gives_effectiveSynthesis_of_kept stored kept)

/-- A store without fake overrides and results is committed. -/
theorem committed_initial {store : Store} (wf : store.WellFormed)
    (plain : ∀ id declaration, store.get? id = some declaration →
      declaration.origin ≠ .fakeOverride)
    (options : SynthesisOptions) : (Workspace.initial store options).Committed :=
  ⟨wf, fun kept => (by cases kept), List.nodup_nil,
    fun stored origin => absurd origin (plain _ _ stored)⟩

end Workspace

/-- Let questions be asked on a store without fake overrides. Then every result that is kept is
committed, and the fake overrides in the store are those of the results, each of one result. A
question that fails other than by conflicts adds no result and no fake override for its class. A
question about a class that has a result is answered from the result and changes nothing, and it is
answered alike from then on. -/
theorem committed_afterAll {store : Store} (wf : store.WellFormed)
    (plain : ∀ id declaration, store.get? id = some declaration →
      declaration.origin ≠ .fakeOverride)
    (options : SynthesisOptions) (queries : List ClassQuery) :
    let w := (Workspace.initial store options).afterAll queries
    (∀ id supertypes result, w.effective.cache.get? (id, supertypes) = some result →
      result.Committed w.store id supertypes) ∧
    (w.fakes.Nodup ∧
      ∀ x, x ∈ w.fakes ↔ ∃ fake, w.store.get? x = some fake ∧ fake.origin = .fakeOverride) ∧
    (∀ (query : ClassQuery) e w', Gives query.ask w (.error e) w' →
      (∀ name reports, e ≠ .overrideConflict name reports) → w.Spares w' query.id) ∧
    ∀ (query : ClassQuery) supertypes result,
      w.effective.cache.get? (query.id, supertypes) = some result →
      Gives query.ask w (query.answer w.store result) w ∧
      ∀ more, ∃ r, Gives query.ask (w.afterAll more) r (w.afterAll more) ∧
        r.map Answer.unread = (query.answer w.store result).map Answer.unread := by
  intro w
  obtain ⟨committed, -⟩ := (Workspace.committed_initial wf plain options).afterAll queries
  refine ⟨fun id supertypes result kept => committed.results kept,
    ⟨committed.nodup, fun x => committed.mem_fakes_iff⟩, fun query e w' gives other => ?_,
    fun query supertypes result kept => ⟨committed.gives_ask_of_kept kept, fun more => ?_⟩⟩
  · exact (committed.ask gives).2.2 e rfl other
  · obtain ⟨committed', advances⟩ := committed.afterAll more
    exact ⟨_, committed'.gives_ask_of_kept (advances.kept kept),
      (committed.results kept).answer_eq advances.store⟩

/-- The class `E` extends `B` and itself, and the class `C` extends `B` and `D`, which have a
function `f` each. Neither of them has effective members. But `B` has, with a fake override, and `C`
has a result, which does not change. -/
theorem committed_afterAll_of_cycle_and_conflict :
    let declarations := [.plainClass ⟨1⟩ "A" [] [⟨6⟩], .plainClass ⟨2⟩ "B" ["A"] [],
      .plainClass ⟨3⟩ "C" ["B", "D"] [], .plainClass ⟨4⟩ "D" [] [⟨7⟩],
        .plainClass ⟨5⟩ "E" ["B", "E"] [],
      .plainFunction ⟨6⟩ ⟨1⟩ .nullableAny, .plainFunction ⟨7⟩ ⟨4⟩ .nullableAny]
    let store := Store.empty.receive ⟨8⟩ declarations
    let w := (Workspace.initial store {}).afterAll [.synthesis ⟨5⟩, .members ⟨3⟩]
    w.fakes = [⟨8⟩] ∧ (∃ fake, w.store.get? ⟨8⟩ = some fake ∧ fake.origin = .fakeOverride) ∧
    (∃ e w', Gives (ClassQuery.synthesis ⟨5⟩).ask w (.error e) w' ∧ w.Spares w' ⟨5⟩) ∧
    ∃ e, Gives (ClassQuery.members ⟨3⟩).ask w (.error e) w := by
  intro declarations store w
  have wf : store.WellFormed :=
    (Store.sound_receive_empty (by decide) (by decide) (by decide)).toWellFormed
  have sources : ∀ declaration ∈ declarations, declaration.origin ≠ .fakeOverride := by decide
  obtain ⟨-, ⟨-, registered⟩, spares, stays⟩ :=
    committed_afterAll wf (fun _ _ stored => sources _ (Store.mem_of_get?_receive_empty stored).1)
      {}
      [.synthesis ⟨5⟩, .members ⟨3⟩]
  have computed : w.fakes = [⟨8⟩] ∧
      (match (ClassQuery.synthesis ⟨5⟩).ask w with
        | .error e _ => decide (e = .malformedChain "cyclic inheritance through `E`")
        | .ok _ _ => false) = true ∧
      (w.effective.cache.get? (⟨3⟩, [.ofClass ⟨"", "B", false⟩, .ofClass ⟨"", "D", false⟩])).any
        (·.hasConflicts) = true := by decide +kernel
  obtain ⟨fakes, cyclic, conflicting⟩ := computed
  refine ⟨fakes, (registered ⟨8⟩).1 (by rw [fakes]; exact List.mem_singleton_self _), ?_, ?_⟩
  · cases failed : (ClassQuery.synthesis ⟨5⟩).ask w with
    | ok found w' =>
      rw [failed] at cyclic
      cases cyclic
    | error e w' =>
      rw [failed] at cyclic
      obtain rfl := of_decide_eq_true cyclic
      have failed : Gives (ClassQuery.synthesis ⟨5⟩).ask w (.error _) w' := failed
      exact ⟨_, w', failed, spares (.synthesis ⟨5⟩) _ w' failed fun _ _ e => by cases e⟩
  · obtain ⟨result, kept, conflicting⟩ := (Option.any_eq_true _ _).1 conflicting
    have answered :
        Gives (ClassQuery.members ⟨3⟩).ask w (ClassQuery.answer w.store result (.members ⟨3⟩)) w :=
      (stays (.members ⟨3⟩) _ result kept).1
    rcases result.checked_cases w.store with conflict | ok
    · simp only [ClassQuery.answer, conflict, Except.map] at answered
      exact ⟨_, answered⟩
    · simp [OverrideSynthesis.checked, conflicting] at ok

end ClassSymbols
