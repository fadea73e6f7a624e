import ClassSymbols.Proofs.Loading.Contexts
import ClassSymbols.Proofs.Runs.Changes

/-!
# Loading and asking

A store in which every declaration has a place keeps it whatever is loaded and whatever is asked:
the fake overrides of a class are stored as its members are.

## Main definitions

* `Store.Operation` — one operation on a store.

## Main statements

* `Store.storeRule_rooted` — a question keeps a store rooted.
* `rooted_of_operations` — what any sequence of operations makes of the empty store.
-/

namespace ClassSymbols

open Relation Store

namespace Store

variable {s : Store}

/-! ## Fake overrides -/

/-- What takes part in overriding has a place in any stored class. -/
theorem Rooted.placed_of_isCallable (h : s.Rooted) {id : DeclId} {data : ClassData}
    (isClass : s.IsClass id data) {declaration : Declaration}
    (container : declaration.container = some id) (callable : declaration.isCallable = true) :
    s.Placed declaration := by
  obtain ⟨reading, -, inside⟩ := h.inside_of_deferred isClass
  have owner := inside.owner_eq h.keyed
  refine .inner reading.context (owner.symm ▸ inside)
    ⟨owner.symm ▸ container, ?_, fun data hc => ?_⟩
  · exact Declaration.isInner_of_isCallable callable
  · rw [Declaration.class?_eq_none_of_isCallable callable] at hc
    cases hc

/-- A question keeps a store rooted: members are read, and fake overrides are stored in their
class. -/
theorem storeRule_rooted : StoreRule Rooted Extends where
  wellFormed rooted := rooted.toWellFormed
  extends' wider := wider
  refl := .refl
  trans := .trans
  read rooted asked := by
    have adds : ReflTransGen (Adds fun _ => True) _ _ := adds_of_classMembers rooted.anchored asked
    exact rooted.of_additions adds
  commit rooted isClass ready callable := by
    refine ⟨rooted.receive ready.batch fun fake hf => ?_, ready.batch.toExtends rooted.toWellFormed⟩
    obtain ⟨-, -, container, -⟩ := ready.made fake hf
    exact rooted.placed_of_isCallable isClass container (callable fake hf)

/-! ## Sequences of operations -/

/-- One operation on a store: something is loaded, or a question is asked while some results are
kept. -/
inductive Operation (s s' : Store) : Prop
  | load : s.Loading s' → Operation s s'
  | ask (query : ClassQuery) (effective effective' : EffectiveMembers)
      (r : Except SymbolError Answer) :
      Gives query.ask ⟨s, effective⟩ r ⟨s', effective'⟩ → Operation s s'

theorem Rooted.of_operation (h : s.Rooted) {t : Store} (step : s.Operation t) : t.Rooted := by
  cases step with
  | load loading => exact (h.of_additions (h.anchored.adds_of_loading loading)).1
  | ask query effective effective' r gives => exact (storeRule_rooted.ask h gives).1

end Store

/-- Let things be loaded into the empty store and questions be asked, in any order, with failures or
without. Then every declaration is stored under its own id, which has been given out. Modules are
the declarations that are contained in nothing, and the container of any other declaration is stored
under a smaller id. Classes are found by their class ids, and only classes are found. The members of
a class are stored in it, where they are known. So containers lead from every declaration to a
module, and the chain of the declaration is found if it is short enough. -/
theorem rooted_of_operations {s : Store} (run : ReflTransGen Operation .empty s) :
    (∀ id declaration, s.get? id = some declaration →
      declaration.id = id ∧ 1 ≤ id.number ∧ id.number < s.next.number ∧
      (declaration.isModule = true ↔ declaration.container = none) ∧
      ∀ container, declaration.container = some container →
        (∃ outer, s.get? container = some outer) ∧ container.number < id.number) ∧
    (∀ classId id, s.findClass? classId = some id →
      ∃ data, s.IsClass id data ∧ data.classId = classId) ∧
    (∀ id data, s.IsClass id data → ∃ found, s.findClass? data.classId = some found) ∧
    (∀ id members, s.members? id = some members → ∀ member ∈ members,
      ∃ declaration, s.get? member = some declaration ∧ declaration.container = some id) ∧
    ∀ id declaration, s.get? id = some declaration → ∃ module rest, module.isModule = true ∧
      s.Chain id (module :: rest) ∧
      ((module :: rest).length ≤ Limits.ownershipDepth →
        s.ownershipChain id = .ok (module :: rest)) := by
  have rooted : s.Rooted := by
    induction run with
    | refl => exact .empty
    | tail _ step ih => exact ih.of_operation step
  refine ⟨?_, ?_, ?_, ?_, ?_⟩
  · intro id declaration stored
    refine ⟨rooted.keyed stored, rooted.valid stored, rooted.allocated stored,
      (rooted.placed stored).isModule_iff, ?_⟩
    intro container inside
    exact rooted.layered stored inside
  · intro classId id found
    exact rooted.found found
  · intro id data isClass
    exact Option.isSome_iff_exists.1 (rooted.indexed isClass)
  · intro id members known
    exact rooted.contained known
  · intro id declaration stored
    obtain ⟨chain, leads⟩ := rooted.exists_chain stored
    obtain ⟨module, rest, rfl, outermost⟩ := leads.exists_cons
    exact ⟨module, rest, outermost, leads,
      leads.ownershipChain_eq rooted.toWellFormed rooted.layered⟩

/-- Once a local function has been resolved in the class `Box<T>`, the effective members of the
class `Case` are asked for. The function that it inherits is stored in it, below the module. -/
theorem rooted_of_operations_of_box :
    let s := Store.empty.after (loadAll boxModule)
    ∃ chain, s.ownershipChain ⟨3⟩ = .ok chain ∧
      let t := s.after (resolveLocal boxModule ⟨"p", 0⟩ chain)
      let w := (Workspace.initial t {}).after (ClassQuery.ask (.synthesis ⟨4⟩))
      ∃ fake, w.store.get? ⟨7⟩ = some fake ∧ fake.origin = .fakeOverride ∧
        fake.container = some ⟨4⟩ ∧
        (∃ outer, w.store.get? ⟨4⟩ = some outer) ∧ ∃ module rest, module.isModule = true ∧
          w.store.Chain ⟨7⟩ (module :: rest) := by
  intro s
  have computed : (match s.ownershipChain ⟨3⟩ with
      | .ok chain =>
        let t := s.after (resolveLocal boxModule ⟨"p", 0⟩ chain)
        let w := (Workspace.initial t {}).after (ClassQuery.ask (.synthesis ⟨4⟩))
        (w.store.get? ⟨7⟩).any fun fake =>
          decide (fake.origin = .fakeOverride ∧ fake.container = some ⟨4⟩)
      | .error _ => false) = true := by decide +kernel
  cases leads : s.ownershipChain ⟨3⟩ with
  | error e => simp [leads] at computed
  | ok chain =>
    rw [leads] at computed
    obtain ⟨fake, stored, made⟩ := (Option.any_eq_true _ _).1 computed
    obtain ⟨origin, container⟩ := of_decide_eq_true made
    let t := s.after (resolveLocal boxModule ⟨"p", 0⟩ chain)
    have run : ReflTransGen Operation .empty
        ((Workspace.initial t {}).after (ClassQuery.ask (.synthesis ⟨4⟩))).store := by
      obtain ⟨r, loaded⟩ := Store.exists_gives_after .empty (loadAll boxModule)
      obtain ⟨r', resolved⟩ := s.exists_gives_after (resolveLocal boxModule ⟨"p", 0⟩ chain)
      obtain ⟨r'', asked⟩ :=
      (Workspace.initial t {}).exists_gives_after (ClassQuery.ask (.synthesis ⟨4⟩))
      refine .tail (.tail (.single (.load (.all boxModule r loaded))) ?_) (.ask _ _ _ r'' asked)
      exact .load (.inside boxModule ⟨"p", 0⟩ ⟨3⟩ chain r' leads resolved)
    obtain ⟨declarations, -, -, -, chains⟩ := rooted_of_operations run
    obtain ⟨-, -, -, -, inside⟩ := declarations ⟨7⟩ fake stored
    obtain ⟨module, rest, outermost, above, -⟩ := chains ⟨7⟩ fake stored
    exact ⟨chain, rfl, fake, stored, origin, container, (inside ⟨4⟩ container).1, module, rest,
      outermost, above⟩

end ClassSymbols
