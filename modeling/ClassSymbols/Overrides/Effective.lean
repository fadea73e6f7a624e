import ClassSymbols.Loading.Members
import ClassSymbols.Overrides.MemberScope
import ClassSymbols.Overrides.Synthesis

/-!
# Effective members of class hierarchies

The effective members of a class follow from those of its supertypes, which are computed first and
kept. A result is kept under the class and its list of supertypes; its fake overrides are stored at
that moment, with conflicts or without, so that subclasses can refer to every member. What a result
says about overriding is remembered for the classes after it. A supertype whose class is not stored
has no members.

## Main definitions

* `EffectiveMembers` — the results kept so far.
* `EffectiveM` — computations on a store and on results.
* `effectiveSynthesis`, `effectiveMembers`, `effectiveScope` — what can be asked about a class.
-/

namespace ClassSymbols

/-- The results kept so far, and the members that members are known to override. -/
structure EffectiveMembers where
  options : SynthesisOptions := {}
  cache : OrderedMap (DeclId × List Ty) OverrideSynthesis := .empty
  overridden : DeclMap (List DeclId) := .empty

namespace EffectiveMembers

def cached (effective : EffectiveMembers) : Nat := effective.cache.size

/-- The members that a member overrides directly: those that a result says, and otherwise those that
its stored declaration says. -/
def overriddenBy (effective : EffectiveMembers) (store : Store) (member : DeclId) : List DeclId :=
  (effective.overridden.get? member).getD (store.overridden member)

/-- The lookup that knows what results and stored declarations say. -/
def lookup (effective : EffectiveMembers) (store : Store) : OverriddenLookup where
  successors := effective.overriddenBy store
  support := effective.overridden.keys ++ store.ids
  mem_support member h := by
    rw [List.mem_append]
    by_cases known : effective.overridden.get? member = none
    · right
      refine store.overriddenLookup.mem_support member ?_
      simpa [overriddenBy, known, Store.overriddenLookup] using h
    · exact .inl (effective.overridden.mem_keys_of_get?_ne_none known)

/-- Keeps a result of the class `id` with the given supertypes, and what it says about
overriding. -/
def keep (effective : EffectiveMembers) (id : DeclId) (supertypes : List Ty)
    (synthesis : OverrideSynthesis) : EffectiveMembers :=
  { effective with
    cache := effective.cache.insert (id, supertypes) synthesis
    overridden := synthesis.set.overridden.entries.foldl
      (fun known entry => known.insert entry.1 entry.2) effective.overridden }

end EffectiveMembers

/-- A store and the results that were computed on it. -/
structure Workspace where
  store : Store
  effective : EffectiveMembers

/-- Computations on a store and on results. A failure keeps the changes made before it. -/
abbrev EffectiveM := EStateM SymbolError Workspace

namespace EffectiveM

def onStore {α : Type} (action : StoreM α) : EffectiveM α := fun workspace =>
  match action workspace.store with
  | .ok a store => .ok a { workspace with store }
  | .error e store => .error e { workspace with store }

end EffectiveM

/-- What is to be done for a class: a result is there, or has to be computed. -/
inductive Request where
  | kept (synthesis : OverrideSynthesis)
  | compute (name : String) (data : ClassData)

/-- What is to be done for the class `id` while the classes `visiting` are being resolved. -/
def Workspace.request (workspace : Workspace) (visiting : List DeclId) (id : DeclId) :
    Except SymbolError Request := do
  let declaration ← workspace.store.resolve id
  match declaration.class? with
  | none =>
    throw (.malformedChain ("effective members requested for " ++ declaration.kind.label ++ " `" ++
      declaration.name ++ "`"))
  | some data =>
    match workspace.effective.cache.get? (id, data.supertypes) with
    | some synthesis => return .kept synthesis
    | none =>
      if visiting.contains id then
        throw (.malformedChain ("cyclic inheritance through `" ++ declaration.name ++ "`"))
      return .compute declaration.name data

/-- The members of the supertypes whose classes are stored. `resolve` computes the effective members
of a class. -/
def supertypeMembers (resolve : DeclId → EffectiveM OverrideSynthesis) :
    List Ty → EffectiveM (List SupertypeMembers)
  | [] => return []
  | supertype :: rest => do
    match supertype.classId?.bind (← get).store.findClass? with
    | none => supertypeMembers resolve rest
    | some owner => do
      let synthesis ← resolve owner
      let others ← supertypeMembers resolve rest
      return { supertype, owner, members := synthesis.set.memberIds } :: others

/-- Stores the fake overrides of a result of the class `id`, and keeps it. -/
def commit (id : DeclId) (supertypes : List Ty) (synthesis : OverrideSynthesis) :
    EffectiveM OverrideSynthesis := fun workspace =>
  let (registered, store) := synthesis.register workspace.store
  .ok registered ⟨store, workspace.effective.keep id supertypes registered⟩

def computeFrom (id : DeclId) (data : ClassData) (supertypes : List SupertypeMembers) :
    EffectiveM OverrideSynthesis := do
  let declared ← EffectiveM.onStore (classMembers id)
  let workspace ← get
  let synthesis ← EffectiveM.onStore
    (synthesizeWith workspace.effective.options (workspace.effective.lookup workspace.store) id
      declared supertypes)
  commit id data.supertypes synthesis

/-- The effective members of the class `id` while the classes `visiting` are being resolved, with
room for a number of further classes. -/
def resolveWithin : Nat → List DeclId → DeclId → EffectiveM OverrideSynthesis
  | room, visiting, id => do
    let workspace ← get
    match workspace.request visiting id with
    | .error e => throw e
    | .ok (.kept synthesis) => return synthesis
    | .ok (.compute name data) =>
      match room with
      | 0 =>
        throw (.malformedChain ("supertype hierarchy of `" ++ name ++ "` exceeds " ++
          toString Limits.ownershipDepth ++ " classes"))
      | room + 1 => do
        let supertypes ← supertypeMembers (resolveWithin room (id :: visiting)) data.supertypes
        computeFrom id data supertypes

def effectiveSynthesis (id : DeclId) : EffectiveM OverrideSynthesis :=
  resolveWithin Limits.ownershipDepth [] id

/-- The effective members of a class, where any conflict is a failure. -/
def effectiveMembers (id : DeclId) : EffectiveM OverrideSet := do
  let synthesis ← effectiveSynthesis id
  if synthesis.hasConflicts then throw (synthesis.conflictError (← get).store)
  return synthesis.set

def effectiveScope (id : DeclId) : EffectiveM MemberScope := do
  let set ← effectiveMembers id
  EffectiveM.onStore (StoreM.reading fun store => MemberScope.ofSet store set)

end ClassSymbols
