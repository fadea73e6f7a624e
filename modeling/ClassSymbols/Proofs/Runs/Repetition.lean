import ClassSymbols.Proofs.Resolution.Laziness
import ClassSymbols.Proofs.Runs.Transfer

/-!
# Resolving again

A local record that is resolved again gives a declaration of its own, and its class is found in the
place of the one before. So it may change what is found for supertypes later on, and nothing else:
if the classes above a class find what corresponds, then the effective members are the same up to
the ids.

## Main definitions

* `Course.asking` — operations on a loaded module, and then a question for effective members.
* `Course.ResolvesLast` — courses that have no results before their last operation.

## Main statements

* `view_eq_of_found_alike` — the result for a class after two sequences of operations.
* `not_forall_conflicts_eq` — a class may have conflicts since a class above it was resolved again.
-/

namespace ClassSymbols

open Relation Store

/-- Some operations on a loaded module, and then a question for the effective members of a class. -/
def Course.asking (table : SymbolTable) (store : Store) (options : SynthesisOptions)
    (actions : List Action) (id : DeclId) :
    Course where
  table := table
  start := .initial store options
  actions := actions ++ [.ask (.synthesis id)]

variable {table : SymbolTable} {module : LoadedModule} {store : Store} {options : SynthesisOptions}

theorem Course.begins_asking (loaded : loadAll table .empty = .ok module store)
    (options : SynthesisOptions) (actions : List Action) (id : DeclId) :
    (Course.asking table store options actions id).Begins where
  fresh := Workspace.fresh_initial (loaded_of_loadAll loaded).toSound options
  loaded := loaded_of_loadAll loaded
  recorded :=
    (Recorded.empty.of_loading (.single (.all table (.ok module) (gives_ok_iff.2 loaded)))).1

/-! ## Hierarchies in the order of ids -/

/-- If all classes have higher ids than those above them, then no more classes are above one another
than there are ids below. -/
theorem length_le_of_isChain {r : DeclId → DeclId → Prop}
    (descends : ∀ {a b}, r a b → b.number < a.number) {a : DeclId} {path : List DeclId}
    (chain : List.IsChain r (a :: path)) : path.length ≤ a.number := by
  induction path generalizing a with
  | nil => exact Nat.zero_le _
  | cons b rest ih =>
    obtain ⟨step, chain⟩ := List.isChain_cons_cons.1 chain
    exact Nat.succ_le_of_lt (Nat.lt_of_le_of_lt (ih chain) (descends step))

/-- Whether all stored classes have higher ids than those that are found for their supertypes. -/
def Store.Descends (store : Store) : Prop :=
  ∀ a ∈ store.ids, ∀ data ∈ (store.get? a).bind (·.class?), ∀ supertype ∈ data.supertypes,
    ∀ b ∈ supertype.classId?.bind store.findClass?, b.number < a.number

instance (store : Store) : Decidable store.Descends := inferInstanceAs (Decidable (∀ _ ∈ _, _))

theorem Store.Descends.lt {store : Store} (h : store.Descends) {a b : DeclId}
    (parent : store.Parent a b) :
    b.number < a.number := by
  obtain ⟨data, ⟨declaration, stored, hc⟩, supertype, hs, found⟩ := parent
  have listed : a ∈ store.ids := (store.declarations.mem_keys_iff a).2 (Option.isSome_of_mem stored)
  exact h a listed data (Option.bind_eq_some_iff.2 ⟨declaration, stored, hc⟩) supertype hs b found

/-! ## Courses that resolve at the end -/

/-- Whether a course has no results before its last operation, and stores no classes in it. -/
structure Course.ResolvesLast (course : Course) (actions : List Action) (last : Action) : Prop where
  split : course.actions = actions ++ [last]
  unresolved : ∀ a, (course.after actions).result? a = none
  settled : ∀ k, (course.after actions).store.findClass? k = course.finish.store.findClass? k

/-- A course with an empty cache and the same classes before and after its last operation resolves
at the end. -/
theorem Course.ResolvesLast.of_entries {course : Course} {actions : List Action} {last : Action}
    (split : course.actions = actions ++ [last])
    (empty : (course.after actions).effective.cache.size = 0)
    (settled : course.finish.store.classes.entries = (course.after actions).store.classes.entries) :
    course.ResolvesLast actions last where
  split := split
  unresolved := Workspace.result?_eq_none (List.length_eq_zero_iff.1 empty)
  settled k := (congrArg (OrderedMap.lookup k) settled.symm :)

namespace Course.ResolvesLast

variable {A B : Course} {choice : DeclId → DeclId → Prop} {actions actions' : List Action}
  {last last' : Action} (h : A.ResolvesLast actions last)
include h

/-- What is found in the end was found for all classes. -/
theorem finds (a : DeclId) (k : ClassId) : A.Finds a k (A.finish.store.findClass? k) := by
  have finish : A.after (actions ++ [last]) = A.finish := congrArg A.after h.split.symm
  exact ⟨actions, last, [], ⟨h.split, h.unresolved a, fun _ => rfl⟩, h.settled k, by rw [finish]⟩

/-- The classes that were found for supertypes are those that are found in the end. -/
theorem parent_of_uses (begins : A.Begins) {a b : DeclId} (uses : A.finish.store.Uses A.Finds a b) :
    A.finish.store.Parent a b := by
  obtain ⟨data, isClass, supertype, hs, k, named, found⟩ := uses
  refine ⟨data, isClass, supertype, hs, ?_⟩
  rw [named, Option.bind_some, begins.finds_unique found (h.finds a k)]

/-- Two such courses find alike if the classes that are found in the end correspond. -/
theorem foundAlike (h' : B.ResolvesLast actions' last')
    (related : A.finish.store.classes.Related id (Corresponds A B choice) B.finish.store.classes)
    (id : DeclId) : FoundAlike A B choice id :=
  fun {a a' k} _ _ _ =>
  ⟨_, _, h.finds a k, h'.finds a' k, related.get? Function.injective_id k⟩

/-- No more classes are above a class than there are ids below if all ids descend. -/
theorem length_le (begins : A.Begins) (descends : A.finish.store.Descends) {a : DeclId}
    {path : List DeclId} (chain : List.IsChain (A.finish.store.Uses A.Finds) (a :: path)) :
    path.length ≤ a.number :=
  length_le_of_isChain (fun uses => descends.lt (h.parent_of_uses begins uses)) chain

end Course.ResolvesLast

/-! ## Local classes -/

/-- Each id may be chosen for the one before. -/
theorem biUnique_next : Relator.BiUnique fun x y : DeclId => y = x.next := by
  refine ⟨fun x y z e e' => ?_, fun x y z e e' => e.trans e'.symm⟩
  cases x
  cases y
  exact congrArg DeclId.mk (Nat.succ.inj (DeclId.mk.inj (e.symm.trans e')))

/-- A module with a class `T` and the records of local classes: `L`, which has a function `f` to
`T`, `M`, which extends `L`, and `N`, which extends `M` and `L`. -/
def localModule : SymbolTable where
  module := "m"
  fragments := .ofList [("p", {
    names := {
      strings := ["T", "L", "M", "N", "f"]
      qualifiedNames := [
        { shortName := 0, kind := .classifier },
        { shortName := 1, kind := .localClass },
        { shortName := 2, kind := .localClass },
        { shortName := 3, kind := .localClass }] }
    types := {}
    classes := [{ qualifiedName := 0 }]
    records := [
      .classRecord { qualifiedName := 1
                     functions :=
                       [{ name := 4, returnType := .inline (.mk (.className 0) [] false) }] },
      .classRecord { qualifiedName := 2, supertypes := [.inline (.mk (.className 1) [] false)] },
      .classRecord { qualifiedName := 3
                     supertypes := [.inline (.mk (.className 2) [] false),
                       .inline (.mk (.className 1) [] false)] }] })]

def resolveIndex (index : UInt32) : Action := .resolve ⟨"p", index⟩ ⟨2⟩

/-! ## Resolving again -/

/-- Let operations be carried out on one loaded module in two ways, and let the declarations of the
two correspond that were there at the start, that are at one position of corresponding classes, or
that were resolved from one record inside corresponding declarations, by any choice that is
one-to-one. If a class has a result after the first operations, and the classes above it, which are
not more above one another than a resolution has room for, find declarations that correspond for all
class ids that they ask for, or none in both, before and after the operation in which they are
resolved, then the corresponding class has a result after the second operations. Both results have
the same names, with the same origins and signatures for each of them, and the same conflicts. Only
ids differ. -/
theorem view_eq_of_found_alike (loaded : loadAll table .empty = .ok module store)
    (natural : options.relation.Natural) (actions actions' : List Action) (id id' : DeclId) :
    let A := Course.asking table store options actions id
    let B := Course.asking table store options actions' id'
    ∀ {choice : DeclId → DeclId → Prop} {result : OverrideSynthesis} {w : Workspace},
      Relator.BiUnique choice →
      effectiveSynthesis id ((Workspace.initial store options).actAll table actions) =
        .ok result w →
      (∃ declaration, ((Workspace.initial store options).actAll table actions').store.get? id' =
        some declaration) →
      Corresponds A B choice id id' → FoundAlike A B choice id →
      (∀ path, List.IsChain (w.store.Uses A.Finds) (id :: path) →
        (id :: path).length ≤ Limits.ownershipDepth) →
      ∃ result' w',
        effectiveSynthesis id' ((Workspace.initial store options).actAll table actions') =
          .ok result' w' ∧
        ∃ f, Function.Injective f ∧ (∀ x y, Corresponds A B choice x y → f x = y) ∧
          w'.view result'.set = (w.view result.set).map (fun (name, group) =>
            (name, group.map fun (origin, signature) =>
              (origin, signature.map (Signature.rename f)))) ∧
          result'.conflicts = result.conflicts.map (Conflict.rename f) := by
  intro A B choice result w biUnique ok known same alike short
  have begins : A.Begins := Course.begins_asking loaded options actions id
  have begins' : B.Begins := Course.begins_asking loaded options actions' id'
  have parallel : Parallel A B choice := ⟨begins, rfl, rfl, biUnique⟩
  obtain ⟨log, log', f, accord⟩ := parallel.exists_accord alike
  obtain rfl : A.finish = w := Course.finish_eq_of_gives rfl (gives_ok_iff.2 ok)
  obtain ⟨c, hc, owner, rfl⟩ := begins.exists_result rfl ok accord.run
  have answered : Answered A B choice log log' f actions' id id' :=
    ⟨parallel, accord, ⟨c, hc, owner⟩, same, rfl⟩
  obtain ⟨result', ok'⟩ := answered.exists_ok known short
  obtain ⟨c', hc', owner', rfl⟩ := begins'.exists_result rfl ok' accord.run'
  subst owner owner'
  have kept : A.finish.effective.options = options := accord.run.facts.later.options
  have comparison := accord.comparison (kept ▸ natural)
  have above : ReflTransGen (A.finish.store.Uses A.Finds) c.owner c.owner ∧
    ∃ a', Corresponds A B choice c.owner a' :=
    ⟨.refl, _, same⟩
  have renames := comparison.renames accord.run.history (List.Subset.refl _) c hc above c' hc' same
  refine ⟨c'.result, B.finish, ok', f, accord.injective,
    fun x y pair => accord.takes (.pair pair), ?_, renames.conflicts⟩
  exact Workspace.view_eq renames.set fun x hx => comparison.signature?_eq hc hc' above same hx

/-- A class whose supertypes are resolved after the first of them was resolved again has the
function that it inherits alike. -/
theorem view_eq_of_resolved_again :
    ∃ module store result w result' w', loadAll localModule .empty = .ok module store ∧
      effectiveSynthesis ⟨6⟩ ((Workspace.initial store {}).actAll localModule
        [resolveIndex 0, resolveIndex 1, resolveIndex 2]) = .ok result w ∧
      effectiveSynthesis ⟨7⟩ ((Workspace.initial store {}).actAll localModule
        [resolveIndex 0, resolveIndex 0, resolveIndex 1, resolveIndex 2]) = .ok result' w' ∧
      result.set.groups.keys = ["f"] ∧
      ∃ f, Function.Injective f ∧
        w'.view result'.set = (w.view result.set).map (fun (name, group) =>
          (name, group.map fun (origin, signature) =>
            (origin, signature.map (Signature.rename f)))) ∧
        result'.conflicts = result.conflicts.map (Conflict.rename f) := by
  let resolved := [resolveIndex 0, resolveIndex 1, resolveIndex 2]
  let again := [resolveIndex 0, resolveIndex 0, resolveIndex 1, resolveIndex 2]
  let top : ClassId := ⟨"", "T", false⟩
  let first : ClassId := ⟨"", "L", true⟩
  let second : ClassId := ⟨"", "M", true⟩
  let third : ClassId := ⟨"", "N", true⟩
  have computed : (match loadAll localModule .empty with
      | .ok _ store =>
        let A := Course.asking localModule store {} resolved ⟨6⟩
        let B := Course.asking localModule store {} again ⟨7⟩
        let u := A.after resolved
        let u' := B.after again
        let gives (course : Course) (before : List Action) (index : UInt32) :=
          (resolveInside localModule ⟨"p", index⟩ ⟨2⟩).run' (course.after before).store
        match effectiveSynthesis ⟨6⟩ u with
        | .ok result w =>
          decide (store.next = ⟨4⟩ ∧ result.set.groups.keys = ["f"] ∧ w.store.Descends ∧
            (u'.store.get? ⟨7⟩).isSome ∧ u.effective.cache.size = 0 ∧ u'.effective.cache.size = 0 ∧
            A.finish.store.classes.entries = u.store.classes.entries ∧
            B.finish.store.classes.entries = u'.store.classes.entries ∧
            A.finish.store.classes.entries =
              [(top, ⟨3⟩), (first, ⟨4⟩), (second, ⟨5⟩), (third, ⟨6⟩)] ∧
            B.finish.store.classes.entries =
              [(top, ⟨3⟩), (first, ⟨5⟩), (second, ⟨6⟩), (third, ⟨7⟩)] ∧
            gives A [] 0 = some ⟨4⟩ ∧ gives B (again.take 1) 0 = some ⟨5⟩ ∧
            gives A (resolved.take 1) 1 = some ⟨5⟩ ∧ gives B (again.take 2) 1 = some ⟨6⟩ ∧
            gives A (resolved.take 2) 2 = some ⟨6⟩ ∧ gives B (again.take 3) 2 = some ⟨7⟩)
        | _ => false
      | .error _ _ => false) = true := by decide +kernel
  cases loaded : loadAll localModule .empty with
  | error e store => simp [loaded] at computed
  | ok module store =>
    rw [loaded] at computed
    dsimp only at computed
    split at computed
    · next result w ok =>
      obtain ⟨next, keys, descends, known, empty, empty', settled, settled', entries, entries',
        given⟩ :=
        of_decide_eq_true computed
      obtain ⟨l, l', m, m', n, n'⟩ := given
      let A := Course.asking localModule store {} resolved ⟨6⟩
      let B := Course.asking localModule store {} again ⟨7⟩
      let choice (x y : DeclId) : Prop := y = x.next
      have last : A.ResolvesLast resolved (.ask (.synthesis ⟨6⟩)) := .of_entries rfl empty settled
      have last' : B.ResolvesLast again (.ask (.synthesis ⟨7⟩)) := .of_entries rfl empty' settled'
      have old {id : DeclId} (below : id.number < 4) : Corresponds A B choice id id :=
        .shared (Nat.lt_of_lt_of_eq below (congrArg DeclId.number next).symm)
      have pair {index : UInt32} {x y : DeclId} (registers : A.Registers ⟨"p", index⟩ ⟨2⟩ x)
          (registers' : B.Registers ⟨"p", index⟩ ⟨2⟩ y) (chosen : choice x y) :
            Corresponds A B choice x y :=
        .resolved (old (by decide)) registers registers' chosen
      have pair₁ : Corresponds A B choice ⟨4⟩ ⟨5⟩ :=
        pair (Course.registers_of_run' rfl l) (Course.registers_of_run' rfl l') rfl
      have pair₂ : Corresponds A B choice ⟨5⟩ ⟨6⟩ :=
        pair (Course.registers_of_run' rfl m) (Course.registers_of_run' rfl m') rfl
      have pair₃ : Corresponds A B choice ⟨6⟩ ⟨7⟩ :=
        pair (Course.registers_of_run' rfl n) (Course.registers_of_run' rfl n') rfl
      have related :
          A.finish.store.classes.Related id (Corresponds A B choice) B.finish.store.classes := by
        rw [OrderedMap.Related, entries, entries']
        exact .cons ⟨rfl, old (by decide)⟩
          (.cons ⟨rfl, pair₁⟩ (.cons ⟨rfl, pair₂⟩ (.cons ⟨rfl, pair₃⟩ .nil)))
      have finish : A.finish = w := Course.finish_eq_of_gives rfl (gives_ok_iff.2 ok)
      have short (path : List DeclId) (chain : List.IsChain (w.store.Uses A.Finds) (⟨6⟩ :: path)) :
          (⟨6⟩ :: path : List DeclId).length ≤ Limits.ownershipDepth := by
        rw [← finish] at chain descends
        have lengths := last.length_le (Course.begins_asking loaded {} resolved ⟨6⟩) descends chain
        exact Nat.le_trans (Nat.succ_le_succ lengths) (by decide)
      obtain ⟨result', w', ok', f, injective, -, view, conflicts⟩ :=
        view_eq_of_found_alike loaded (RelationKind.natural default) resolved again ⟨6⟩ ⟨7⟩
        biUnique_next ok (Option.isSome_iff_exists.1 known) pair₃
          (last.foundAlike last' related ⟨6⟩) short
      exact ⟨module, store, result, w, result', w', rfl, ok, ok', keys, f, injective, view,
        conflicts⟩
    · cases computed

/-- A class that is resolved again may give a conflict to a class below that was there before: one
of its supertypes has inherited a function of the first declaration, and another one is found as the
second. -/
theorem not_forall_conflicts_eq : ¬∀ (table : SymbolTable) (module : LoadedModule) (store : Store)
    (options : SynthesisOptions) (actions : List Action) (target : RecordRef) (record : ClassRecord)
    (parent known id : DeclId) (result result' : OverrideSynthesis) (w w' : Workspace),
    loadAll table .empty = .ok module store → table.record target = .ok (.classRecord record) →
    (Course.asking table store options actions id).Registers target parent known →
    effectiveSynthesis id ((Workspace.initial store options).actAll table actions) = .ok result w →
    effectiveSynthesis id
      ((Workspace.initial store options).actAll table (actions ++ [.resolve target parent])) =
      .ok result' w' →
    result'.conflicts.length = result.conflicts.length := by
  intro alike
  let actions := [resolveIndex 0, resolveIndex 1, resolveIndex 2, .ask (.synthesis ⟨5⟩)]
  have computed : (match loadAll localModule .empty with
      | .ok _ store =>
        let u := (Workspace.initial store {}).actAll localModule actions
        let u' := (Workspace.initial store {}).actAll localModule (actions ++ [resolveIndex 0])
        match effectiveSynthesis ⟨6⟩ u, effectiveSynthesis ⟨6⟩ u' with
        | .ok result _, .ok result' _ =>
          decide (result'.conflicts.length ≠ result.conflicts.length ∧
            (resolveInside localModule ⟨"p", 0⟩ ⟨2⟩).run' store = some ⟨4⟩)
        | _, _ => false
      | .error _ _ => false) = true := by decide +kernel
  cases loaded : loadAll localModule .empty with
  | error e store => simp [loaded] at computed
  | ok module store =>
    rw [loaded] at computed
    dsimp only at computed
    split at computed
    · next result w result' w' ok ok' =>
      obtain ⟨differ, given⟩ := of_decide_eq_true computed
      have registers :
          (Course.asking localModule store {} actions ⟨6⟩).Registers ⟨"p", 0⟩ ⟨2⟩ ⟨4⟩ :=
        Course.registers_of_run' (show _ = ([] : List Action) ++ _ from rfl) given
      exact differ (alike _ _ _ _ _ _ _ _ _ _ _ _ _ _ loaded rfl registers ok ok')
    · cases computed

end ClassSymbols
