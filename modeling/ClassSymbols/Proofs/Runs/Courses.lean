import ClassSymbols.Proofs.Loading.Atomicity
import ClassSymbols.Proofs.Loading.Twins
import ClassSymbols.Proofs.Resolution.Runs
import ClassSymbols.Proofs.Resolution.Searches

/-!
# Courses

On a loaded module, local records are resolved inside declarations and questions about classes are
asked, in any order. A course is such a sequence. It has a history, which tells for each class what
was found while the class was resolved.

## Main definitions

* `Action`, `Course` — operations on a loaded module, and sequences of them.
* `Course.Begins` — courses that start at a module that has just been loaded.
* `Course.Registers` — the ids that are given to local declarations.
* `Course.Decides`, `Course.Finds` — the operation in which a class is resolved, and what is found
  for a class id then.

## Main statements

* `Course.Begins.exists_run` — a course has a history, with what is found in it.
* `Course.Begins.exists_readInside` — a local declaration stays as it was read.
-/

namespace ClassSymbols

open Relation Store

/-! ## Operations -/

/-- Resolves a local record inside the declaration under an id. -/
def resolveInside (table : SymbolTable) (target : RecordRef) (parent : DeclId) : StoreM DeclId := do
  let chain ← StoreM.reading (·.ownershipChain parent)
  resolveLocal table target chain

/-- An operation on a loaded module. -/
inductive Action where
  | resolve (target : RecordRef) (parent : DeclId)
  | ask (query : ClassQuery)

namespace Workspace

def act (table : SymbolTable) (w : Workspace) : Action → Workspace
  | .resolve target parent => w.after (EffectiveM.onStore (resolveInside table target parent))
  | .ask query => w.after query.ask

def actAll (table : SymbolTable) (w : Workspace) (actions : List Action) : Workspace :=
  actions.foldl (act table) w

end Workspace

/-- A sequence of operations with a symbol table, and the workspace that they start at. -/
structure Course where
  table : SymbolTable
  start : Workspace
  actions : List Action

namespace Course

variable (course : Course)

def after (actions : List Action) : Workspace := course.start.actAll course.table actions

def finish : Workspace := course.after course.actions

/-- Whether an id was given to the declaration of a local record that was resolved inside another
declaration. -/
def Registers (target : RecordRef) (parent id : DeclId) : Prop :=
  ∃ before later store, course.actions = before ++ .resolve target parent :: later ∧
    Gives (resolveInside course.table target parent) (course.after before).store (.ok id) store

/-- Whether a class is resolved in an operation. For a class that is never resolved, this is the
last operation. -/
structure Decides (id : DeclId) (before : List Action) (action : Action) (later : List Action) :
    Prop where
  split : course.actions = before ++ action :: later
  unresolved : (course.after before).result? id = none
  resolved : (course.after (before ++ [action])).result? id = none → later = []

/-- What is found for a class id before and after the operation in which a class is resolved. -/
def Finds : Search := fun id k found =>
  ∃ before action later, course.Decides id before action later ∧
    (course.after before).store.findClass? k = found ∧
    (course.after (before ++ [action])).store.findClass? k = found

theorem after_concat (before : List Action) (action : Action) :
    course.after (before ++ [action]) = (course.after before).act course.table action := by
  simp [after, Workspace.actAll]

end Course

/-! ## What an operation does -/

section Steps

variable {table : SymbolTable} {target : RecordRef} {parent : DeclId} {s s' : Store}

/-- A local declaration is stored under the next id inside its parent, or ids are used up at
most. -/
theorem resolveInside_cases {r : Except SymbolError DeclId}
    (h : Gives (resolveInside table target parent) s r s') :
    (∃ e next, r = .error e ∧ s.Batch next [] ∧ s' = s.receive next []) ∨
      ∃ chain tower record declaration, s.ownershipChain parent = .ok chain ∧
        localRecord table target chain = .ok (tower, record) ∧
        record.reader (tower.context.site s) s s.next = .ok declaration ∧ r = .ok s.next ∧
        s.Batch s.next.next [declaration] ∧ s' = s.receive s.next.next [declaration] := by
  rcases gives_reading_bind_iff.1 h with ⟨e, -, rfl, rfl⟩ | ⟨chain, leads, resolved⟩
  · exact .inl ⟨e, s'.next, rfl, batch_nil (Nat.le_refl _), rfl⟩
  rcases resolveLocal_cases resolved with ⟨e, rfl, rfl | rfl⟩ |
    ⟨tower, record, declaration, found, read, rfl, rfl⟩
  · exact .inl ⟨e, s'.next, rfl, batch_nil (Nat.le_refl _), rfl⟩
  · exact .inl ⟨e, s.next.next, rfl, batch_nil (Nat.le_succ _), rfl⟩
  · obtain ⟨own, -, unread⟩ := record.fresh_reader _ _ read
    exact .inr ⟨chain, tower, record, declaration, leads, found, read, rfl,
      batch_singleton own unread, rfl⟩

/-- An operation continues a history. -/
theorem exists_continues_act {origin w w' : Workspace} {log log' : List Computation}
    (fresh : origin.Fresh) (h : Continues True origin [] log w log' w') (table : SymbolTable)
    (action : Action) :
    ∃ log'', Continues True origin [] log w log'' (w'.act table action) := by
  cases action with
  | resolve target parent =>
    obtain ⟨r, given⟩ :=
      w'.exists_gives_after (EffectiveM.onStore (resolveInside table target parent))
    obtain ⟨store, resolved, e⟩ := gives_onStore_iff.1 given
    refine ⟨log', ?_⟩
    rw [Workspace.act, e]
    rcases resolveInside_cases resolved with ⟨_, _, -, batch, rfl⟩ |
      ⟨_, _, _, _, -, -, -, -, batch, rfl⟩
    · exact h.load fresh batch
    · exact h.load fresh batch
  | ask query =>
    obtain ⟨r, given⟩ := w'.exists_gives_after query.ask
    rcases query.gives_ask_cases given with ⟨_, store, reads, e⟩ | ⟨_, resolved⟩
    · refine ⟨log', ?_⟩
      rw [Workspace.act, e]
      exact h.read fresh reads
    · obtain ⟨log'', continues, -⟩ :=
        (resolutionRule fresh).effectiveSynthesis resolved log' h.history
      exact ⟨log'', h.trans continues⟩

/-- An operation keeps a store rooted. -/
theorem rooted_act {w : Workspace} (h : w.store.Rooted) (table : SymbolTable) (action : Action) :
    (w.act table action).store.Rooted := by
  cases action with
  | resolve target parent =>
    obtain ⟨r, given⟩ :=
      w.exists_gives_after (EffectiveM.onStore (resolveInside table target parent))
    obtain ⟨store, resolved, e⟩ := gives_onStore_iff.1 given
    rw [Workspace.act, e]
    rcases gives_reading_bind_iff.1 resolved with ⟨_, -, -, rfl⟩ | ⟨chain, leads, resolved⟩
    · exact h
    · exact h.of_operation (.load (.inside table target parent chain r leads resolved))
  | ask query =>
    obtain ⟨r, given⟩ := w.exists_gives_after query.ask
    exact h.of_operation (.ask query w.effective (w.act table (.ask query)).effective r given)

end Steps

/-! ## Histories of courses -/

namespace Course

/-- Whether a course starts at a module that has just been loaded, without results. -/
structure Begins (course : Course) : Prop where
  fresh : course.start.Fresh
  loaded : course.start.store.Loaded
  recorded : course.start.store.Recorded

variable {course : Course} (h : course.Begins)
include h

theorem Begins.rooted (actions : List Action) : (course.after actions).store.Rooted := by
  induction actions using List.reverseRecOn with
  | nil => exact h.recorded.toRooted
  | append_singleton before action ih =>
    rw [after_concat]
    exact rooted_act ih course.table action

theorem Begins.described : course.start.store.Described := h.loaded.described

/-- The operations of a course make a history that goes on from each point to the next. -/
theorem Begins.exists_logs (actions : List Action) :
    ∃ log, History True course.start log (course.after actions) ∧
      ∀ before later, before ++ later = actions →
      ∃ log₀, History True course.start log₀ (course.after before) ∧
        Continues True course.start [] log₀ (course.after before) log (course.after actions) := by
  induction actions using List.reverseRecOn with
  | nil =>
    refine ⟨[], .start, fun before later e => ?_⟩
    obtain ⟨rfl, -⟩ := List.append_eq_nil_iff.1 e
    exact ⟨[], .start, .refl .start⟩
  | append_singleton earlier action ih =>
    obtain ⟨log, history, logs⟩ := ih
    obtain ⟨log', step⟩ := exists_continues_act h.fresh (.refl history) course.table action
    rw [← after_concat] at step
    refine ⟨log', step.history, fun before later e => ?_⟩
    rcases List.eq_nil_or_concat later with rfl | ⟨rest, last, rfl⟩
    · rw [List.append_nil] at e
      subst e
      exact ⟨log', step.history, .refl step.history⟩
    · rw [List.concat_eq_append, ← List.append_assoc] at e
      obtain ⟨split, -⟩ := List.append_inj' e rfl
      obtain ⟨log₀, history₀, continues⟩ := logs before rest split
      exact ⟨log₀, history₀, continues.trans step⟩

theorem Begins.leadsTo (before later : List Action) :
    (course.after before).LeadsTo (course.after (before ++ later)) := by
  obtain ⟨log, -, logs⟩ := h.exists_logs (before ++ later)
  obtain ⟨_, -, continues⟩ := logs before later rfl
  exact continues.later

/-- A class is resolved in one operation. -/
theorem Begins.decides_unique {id : DeclId} {before before' later later' : List Action}
    {action action' : Action} (decides : course.Decides id before action later)
    (decides' : course.Decides id before' action' later') :
    before = before' ∧ action = action' := by
  have apart {before before' later later' rest : List Action} {action action' : Action}
      (decides : course.Decides id before action later)
      (decides' : course.Decides id before' action' later')
      (earlier : before' = before ++ action :: rest) : False := by
    have split := decides.split
    rw [decides'.split, earlier, List.append_assoc, List.append_cancel_left_eq, List.cons_append,
      List.cons.injEq] at split
    have known : (course.after (before ++ [action])).result? id ≠ none := by
      intro unresolved
      rw [decides.resolved unresolved] at split
      simp at split
    obtain ⟨result, known⟩ := Option.ne_none_iff_exists'.1 known
    have kept := (h.leadsTo (before ++ [action]) rest).result?_eq known
    rw [List.append_assoc, List.singleton_append, ← earlier, decides'.unresolved] at kept
    cases kept
  have split := decides.split.symm.trans decides'.split
  rcases List.append_eq_append_iff.1 split with ⟨rest, earlier, e⟩ | ⟨rest, earlier, e⟩
  · cases rest with
    | nil => exact ⟨by simpa using earlier.symm, (List.cons.inj e).1⟩
    | cons first rest =>
      obtain ⟨rfl, -⟩ := List.cons.inj e
      exact (apart decides decides' earlier).elim
  · cases rest with
    | nil => exact ⟨by simpa using earlier, (List.cons.inj e).1.symm⟩
    | cons first rest =>
      obtain ⟨rfl, -⟩ := List.cons.inj e
      exact (apart decides' decides earlier).elim

/-- One class is found at most. -/
theorem Begins.finds_unique {id : DeclId} {k : ClassId} {b b' : Option DeclId}
    (finds : course.Finds id k b) (finds' : course.Finds id k b') : b = b' := by
  obtain ⟨before, action, later, decides, found, -⟩ := finds
  obtain ⟨before', action', later', decides', found', -⟩ := finds'
  obtain ⟨rfl, rfl⟩ := h.decides_unique decides decides'
  exact found.symm.trans found'

/-- What is found at a point of a course and later is found in between. -/
theorem Begins.findClass?_between {before : List Action} {k : ClassId} {v w : Workspace}
    (first : (course.after before).LeadsTo v) (last : v.LeadsTo w)
    (same : w.store.findClass? k = (course.after before).store.findClass? k) :
    v.store.findClass? k = (course.after before).store.findClass? k := by
  have rooted := h.rooted before
  refine first.store.findClass?_between last.store (fun {a} known => ?_) same
  obtain ⟨_, ⟨_, stored, -⟩, -⟩ := rooted.found known
  exact rooted.allocated stored

/-- What is found for a class that has no result before the last operation is found in between. -/
theorem Begins.findClass?_of_finds {actions : List Action} {action : Action}
    (split : course.actions = actions ++ [action]) {id : DeclId}
    (unresolved : (course.after actions).result? id = none) {k : ClassId} {b : Option DeclId}
    (finds : course.Finds id k b) {v : Workspace} (first : (course.after actions).LeadsTo v)
    (last : v.LeadsTo course.finish) : v.store.findClass? k = b := by
  obtain ⟨before, action', later, decides, found, found'⟩ := finds
  obtain ⟨rfl, rfl⟩ := h.decides_unique decides ⟨split, unresolved, fun _ => rfl⟩
  have finish : course.finish = course.after (before ++ [action']) := congrArg course.after split
  rw [← found]
  exact h.findClass?_between first (finish ▸ last) (found'.trans found.symm)

/-- A course has a history. What is found while a class is resolved is found all the time in
between. -/
theorem Begins.exists_run : ∃ log, Run course.start log course.finish ∧
    ∀ {c k b v}, c ∈ log → course.Finds c.owner k b → c.start.LeadsTo v → v.LeadsTo c.before →
      v.store.findClass? k = b := by
  obtain ⟨log, history, logs⟩ := h.exists_logs course.actions
  have run : Run course.start log course.finish := ⟨h.fresh, history⟩
  refine ⟨log, run, ?_⟩
  rintro c k b v hc ⟨before, action, later, ⟨split, unresolved, resolved⟩, found, found'⟩ started
    ended
  obtain ⟨log₀, history₀, continues₀⟩ := logs before (action :: later) split.symm
  -- The class has no result before the operation, so the resolution starts later.
  have first : (course.after before).LeadsTo c.start := by
    rcases continues₀.started c hc with old | first
    · cases unresolved.symm.trans ((history₀.facts h.fresh).result?_eq old)
    · exact first
  have last : c.before.LeadsTo (course.after (before ++ [action])) := by
    obtain ⟨log₁, history₁, continues₁⟩ :=
    logs (before ++ [action]) later (by rw [split, List.append_assoc]; rfl)
    have facts₁ := history₁.facts h.fresh
    cases known : (course.after (before ++ [action])).result? c.owner with
    | some result =>
      obtain ⟨c', hc', owner⟩ := facts₁.exists_of_result? known
      obtain rfl := run.facts.owners c' (continues₁.suffix.subset hc') c hc owner
      exact (facts₁.finished c' hc').1.trans (facts₁.finished c' hc').2
    | none =>
      obtain rfl := resolved known
      obtain ⟨step, rest⟩ := run.facts.finished c hc
      have finish : course.finish = course.after (before ++ [action]) := congrArg course.after split
      exact finish ▸ step.trans rest
  rw [← found]
  exact h.findClass?_between (first.trans started) (ended.trans last) (found'.trans found.symm)

/-! ## The last question -/

section Asked

variable {actions : List Action} {id : DeclId}
  (asked : course.actions = actions ++ [.ask (.synthesis id)])
include asked

omit h in
/-- The end of a course that ends with a question for effective members. -/
theorem finish_eq_of_gives {r : Except SymbolError OverrideSynthesis} {w : Workspace}
    (gives : Gives (effectiveSynthesis id) (course.after actions) r w) : course.finish = w := by
  obtain ⟨_, given⟩ := (course.after actions).exists_gives_after (ClassQuery.ask (.synthesis id))
  rw [finish, asked, after_concat]
  exact (given.unique ((ClassQuery.synthesis id).gives_ask (fun _ e => by cases e) gives)).2

/-- The answer is a result of the history. -/
theorem Begins.exists_result {result : OverrideSynthesis} {w : Workspace}
    (ok : effectiveSynthesis id (course.after actions) = .ok result w) {log : List Computation}
    (run : Run course.start log course.finish) : ∃ c ∈ log, c.owner = id ∧ c.result = result := by
  obtain ⟨log₀, history, -⟩ := h.exists_logs actions
  obtain ⟨log₁, continues, answer⟩ :=
    (resolutionRule h.fresh).effectiveSynthesis (gives_ok_iff.2 ok) log₀ history
  obtain ⟨c₁, hc₁, rfl, rfl⟩ := answer result rfl
  have kept := (continues.history.facts h.fresh).cached_iff.2 ⟨c₁, hc₁, rfl, rfl⟩
  rw [← finish_eq_of_gives asked (gives_ok_iff.2 ok)] at kept
  obtain ⟨c, hc, key, result⟩ := run.facts.cached_iff.1 kept
  exact ⟨c, hc, congrArg Prod.fst key, result⟩

end Asked

/-! ## Local declarations -/

omit h in
/-- The id that an operation of a course gave to a local declaration. -/
theorem registers_of_run' {before later : List Action} {target : RecordRef} {parent id : DeclId}
    (split : course.actions = before ++ .resolve target parent :: later)
    (given : (resolveInside course.table target parent).run' (course.after before).store =
      some id) :
    course.Registers target parent id := by
  unfold EStateM.run' at given
  split at given
  · next id' store resolved =>
    obtain rfl := Option.some.inj given
    exact ⟨before, later, store, split, gives_ok_iff.2 resolved⟩
  · cases given

section Registered

variable {target : RecordRef} {parent id : DeclId} (registers : course.Registers target parent id)
include registers

/-- A local declaration is read from the record inside its parent and stored under the next id. -/
theorem Begins.exists_receive :
    ∃ s context record declaration, s.Rooted ∧ course.start.store.Evolves s ∧
    s.Inside parent context ∧ course.table.record target = .ok record ∧ id = s.next ∧
    record.reader (context.site s) s id = .ok declaration ∧ s.Batch s.next.next [declaration] ∧
    (s.receive s.next.next [declaration]).Evolves course.finish.store := by
  obtain ⟨before, later, store, split, resolved⟩ := registers
  have rooted := h.rooted before
  rcases resolveInside_cases resolved with
    ⟨_, _, refused, -⟩ | ⟨chain, tower, record, declaration, leads, found, read, given, batch, rfl⟩
  · cases refused
  obtain rfl := Except.ok.inj given
  obtain ⟨built, known⟩ := found_of_localRecord found
  obtain ⟨chained, -⟩ := ownershipChain_eq_ok_iff.1 leads
  have inside := chained.inside_of_build rooted.keyed built
  refine ⟨_, tower.context, record, declaration, rooted, (h.leadsTo [] before).store, inside, known,
    rfl, read, batch, ?_⟩
  have next : (course.after (before ++ [.resolve target parent])).store =
      (course.after before).store.receive (course.after before).store.next.next [declaration] := by
    obtain ⟨r, given⟩ := (course.after before).exists_gives_after
      (EffectiveM.onStore (resolveInside course.table target parent))
    obtain ⟨store, again, e⟩ := gives_onStore_iff.1 given
    rw [after_concat, Workspace.act, e]
    exact (again.unique resolved).2
  have evolves := (h.leadsTo (before ++ [.resolve target parent]) later).store
  rw [next, List.append_assoc, List.singleton_append, ← split] at evolves
  exact evolves

/-- A local declaration stays as it was read. -/
theorem Begins.exists_readInside : ∃ context record, course.table.record target = .ok record ∧
    course.finish.store.ReadInside parent context record.member record.isVariable id := by
  obtain ⟨s, context, record, declaration, rooted, -, inside, known, rfl, read, batch, evolves⟩ :=
    h.exists_receive registers
  obtain ⟨own, -, unread⟩ := record.fresh_reader _ _ read
  obtain ⟨later, stored, same⟩ := evolves.kept (own ▸ batch.get?_receive_of_mem List.mem_cons_self)
  have reads : context.Reads (fun _ => True) s declaration :=
    LocalRecord.reads (fun _ _ _ => trivial) (own.symm ▸ read)
  have within := Declaration.Within.of_reads rooted.toWellFormed reads
  obtain ⟨original, made, e⟩ := LocalRecord.reader_eq_ok_iff.1 read
  obtain ⟨own', -⟩ := record.member.fresh_reader _ _ made
  refine ⟨context, record, known,
    inside.mono ((batch.toExtends rooted.toWellFormed).trans evolves.toExtends).kept,
    later, original, stored, ?_, MemberRecord.describes_of_reader made, own', ?_⟩
  · rw [Declaration.congr_unread Declaration.container_unread same, within.container,
      inside.owner_eq rooted.keyed]
  · rw [same, Declaration.unread_of_unknown unread, e]

/-- A local declaration has an id that is new, and is in the list of no class. -/
theorem Begins.registered : course.start.store.next.number ≤ id.number ∧
    id.number < course.finish.store.next.number ∧
    (∃ declaration, course.finish.store.get? id = some declaration ∧
      declaration.origin = .deserialized) ∧
    ∀ {other members}, course.finish.store.members? other = some members → id ∉ members := by
  obtain ⟨s, context, record, declaration, rooted, grown, inside, known, rfl, read, batch,
    evolves⟩ :=
    h.exists_receive registers
  obtain ⟨own, origin, unread⟩ := record.fresh_reader _ _ read
  obtain ⟨later, stored, same⟩ := evolves.kept (own ▸ batch.get?_receive_of_mem List.mem_cons_self)
  have next := evolves.next_le
  rw [next_receive] at next
  refine ⟨grown.next_le, Nat.lt_of_lt_of_le (Nat.lt_succ_self _) next, ⟨later, stored, ?_⟩, ?_⟩
  · rw [Declaration.congr_unread Declaration.origin_unread same, origin]
  · intro other members known listed
    rcases evolves.noted known with old | new
    · obtain ⟨_, stored, -⟩ := rooted.contained (batch.members?_receive_of_some old) _ listed
      exact Nat.lt_irrefl _ (rooted.allocated stored)
    · exact Nat.lt_irrefl _ (new _ listed)

end Registered

end Course

end ClassSymbols
