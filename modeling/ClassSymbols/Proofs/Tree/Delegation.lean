import ClassSymbols.Tree.Delegation
import Mathlib.Data.List.Basic

/-!
# Delegating calls of constructors

The delegating calls in the body of a constructor are counted along its syntax: in every part of
every node, but not in classes. The traversal of the body finds these calls, each of them once.

## Main definitions

* `Node.delegations` — the delegating calls in a tree outside the classes in it.
* `Store.Extendable`, `Store.Superclass` — the superclass among the supertypes of a class.

## Main statements

* `Node.delegationTargets_eq` — the traversal finds all delegating calls.
* `Store.superclass_iff` — every class has one superclass.
* `callsSuper_exact` — what a constructor delegates to.
-/

namespace ClassSymbols

/-! ## Delegations along the syntax -/

mutual
/-- The classes whose constructors are called in delegation in a tree, one for each call. Calls in
classes are left out. -/
def Node.delegations : Node → List ClassId
  | .mk _ _ kind => kind.delegations

/-- A delegating call adds its target to those in its arguments, a class has none, and of anything
else the delegations are those in its parts. -/
def NodeKind.delegations : NodeKind → List ClassId
  | .unitValue | .constant _ | .getValue _ => []
  | .classBody _ _ => []
  | .delegatingCall target _ arguments => target :: delegationsInList arguments
  | .typeOperation _ _ argument | .throw argument => argument.delegations
  | .call _ receiver arguments | .accessorCall _ _ receiver arguments =>
    delegationsInOption receiver ++ delegationsInList arguments
  | .getField _ receiver => delegationsInOption receiver
  | .setField _ receiver value => delegationsInOption receiver ++ value.delegations
  | .conditional condition thenBranch elseBranch =>
    condition.delegations ++ (thenBranch.delegations ++ delegationsInOption elseBranch)
  | .booleanNot parts | .block parts => delegationsInList parts
  | .tryCatch body catches cleanup =>
    body.delegations ++ (delegationsInCatches catches ++ delegationsInOption cleanup)
  | .variableDeclaration _ initializer => delegationsInOption initializer

def Catch.delegations : Catch → List ClassId
  | .mk _ _ _ result => result.delegations

def delegationsInOption : Option Node → List ClassId
  | none => []
  | some node => node.delegations

def delegationsInList : List Node → List ClassId
  | [] => []
  | node :: rest => node.delegations ++ delegationsInList rest

def delegationsInCatches : List Catch → List ClassId
  | [] => []
  | clause :: rest => clause.delegations ++ delegationsInCatches rest
end

theorem delegationsInOption_eq (node : Option Node) :
    delegationsInOption node = node.toList.flatMap Node.delegations := by
  cases node <;> simp [delegationsInOption]

theorem delegationsInList_eq (nodes : List Node) :
    delegationsInList nodes = nodes.flatMap Node.delegations := by
  induction nodes with
  | nil => rfl
  | cons node rest ih => rw [delegationsInList, ih, List.flatMap_cons]

theorem delegationsInCatches_eq (clauses : List Catch) :
    delegationsInCatches clauses = (clauses.map Catch.result).flatMap Node.delegations := by
  induction clauses with
  | nil => rfl
  | cons clause rest ih =>
    obtain ⟨span, parameter, type, result⟩ := clause
    rw [delegationsInCatches, ih, List.map_cons, List.flatMap_cons, Catch.delegations, Catch.result]

/-! ## Delegations on a traversal -/

/-- A traversal that goes below a node if it is no class finds a call at the node itself and those
below it. -/
theorem Node.delegationTargets_eq_append (node : Node) :
    node.delegationTargets = node.delegationTarget?.toList ++
    match outsideClasses node with
    | .skip => []
    | .enter => node.children.flatMap Node.delegationTargets := by
  rw [delegationTargets, walk_eq]
  cases found : node.delegationTarget? <;> cases outsideClasses node <;>
    simp [found, List.filterMap_flatMap] <;> rfl

theorem Node.delegations_eq_append (node : Node) :
    node.delegations = node.delegationTarget?.toList ++
    match outsideClasses node with
    | .skip => []
    | .enter => node.children.flatMap Node.delegations := by
  obtain ⟨span, type, kind⟩ := node
  cases kind <;> simp [delegations, NodeKind.delegations, delegationTarget?, outsideClasses,
    children, NodeKind.children, Node.kind, delegationsInOption_eq, delegationsInList_eq,
    delegationsInCatches_eq]

/-- The traversal of a body finds the delegating calls in it. -/
theorem Node.delegationTargets_eq (node : Node) : node.delegationTargets = node.delegations := by
  rw [delegationTargets_eq_append, delegations_eq_append]
  cases outsideClasses node with
  | skip => rfl
  | enter =>
    refine congrArg _ (List.flatMap_congr fun child below => ?_)
    exact child.delegationTargets_eq
termination_by sizeOf node
decreasing_by exact Node.sizeOf_lt_of_mem_children below

/-! ## Superclasses -/

namespace Store

def Extendable (store : Store) (id : ClassId) : Prop :=
  ∃ found declaration data, store.findClass? id = some found ∧ store.get? found = some declaration ∧
    declaration.class? = some data ∧ data.kind ≠ .interface

/-- Whether a class is the superclass among supertypes: the first one that is found and no
interface, or the root. -/
inductive Superclass (store : Store) : List Ty → ClassId → Prop
  | root : Superclass store [] .any
  | first {type : Ty} {id : ClassId} {rest : List Ty} :
    type.classId? = some id → store.Extendable id →
      Superclass store (type :: rest) id
  | later {type : Ty} {superclass : ClassId} {rest : List Ty} :
      (∀ id, type.classId? = some id → ¬ store.Extendable id) → Superclass store rest superclass →
      Superclass store (type :: rest) superclass

variable {store : Store}

theorem isRegularClass_iff {id : ClassId} :
    store.isRegularClass id = true ↔ store.Extendable id := by
  have regular : store.isRegularClass id = true ↔
      ∃ data, ((store.findClass? id).bind store.get?).bind (·.class?) = some data ∧
        data.kind ≠ .interface := by
    unfold isRegularClass
    split
    · next data found => simp [found]
    · next absent => simp [absent]
  simp only [regular, Option.bind_eq_some_iff]
  constructor
  · rintro ⟨data, ⟨declaration, ⟨found, known, stored⟩, hc⟩, kind⟩
    exact ⟨found, declaration, data, known, stored, hc, kind⟩
  · rintro ⟨found, declaration, data, known, stored, hc, kind⟩
    exact ⟨data, ⟨declaration, ⟨found, known, stored⟩, hc⟩, kind⟩

/-- A supertype decides the superclass if its class is found and no interface. -/
theorem superclassOf_cons (type : Ty) (rest : List Ty) : store.superclassOf (type :: rest) =
    match type.classId?.filter store.isRegularClass with
    | some id => id
    | none => store.superclassOf rest := by
  cases found : type.classId? with
  | none => simp [superclassOf, found]
  | some id =>
    cases regular : store.isRegularClass id <;> simp [superclassOf, found, Option.filter, regular]

/-- Among supertypes there is one superclass. -/
theorem superclass_iff {supertypes : List Ty} {superclass : ClassId} :
    store.Superclass supertypes superclass ↔ superclass = store.superclassOf supertypes := by
  induction supertypes with
  | nil => exact ⟨fun h => by cases h; rfl, fun h => h ▸ .root⟩
  | cons type rest ih =>
    rw [superclassOf_cons]
    cases chosen : type.classId?.filter store.isRegularClass with
    | some id =>
      obtain ⟨found, regular⟩ := Option.filter_eq_some_iff.1 chosen
      have extendable := isRegularClass_iff.1 regular
      refine ⟨fun h => ?_, fun h => h ▸ .first found extendable⟩
      cases h with
      | first found' _ => exact Option.some.inj (found'.symm.trans found)
      | later none _ => exact absurd extendable (none id found)
    | none =>
      have none {id : ClassId} (found : type.classId? = some id) : ¬ store.Extendable id := by
        rw [← isRegularClass_iff]
        exact Option.filter_eq_none_iff.1 chosen id found
      refine ⟨fun h => ?_, fun h => .later (fun _ => none) (ih.2 h)⟩
      cases h with
      | first found extendable => exact absurd extendable (none found)
      | later _ h => exact ih.1 h

end Store

/-! ## Constructors -/

section Constructors

variable {store : Store} {constructor outer : Declaration} {signature : ConstructorData}
  {owner : DeclId} {data : ClassData} (isConstructor : constructor.kind = .constructor signature)
  (inside : constructor.container = some owner) (stored : store.get? owner = some outer)
  (isClass : outer.class? = some data)
include isConstructor inside stored isClass

theorem Store.constructedClass_eq : store.constructedClass constructor = .ok data := by
  have expected : outer.expectClass = .ok data := by
    obtain ⟨_, _, _, _, _, kind⟩ := outer
    cases kind <;> simp_all [Declaration.class?, Declaration.expectClass]
  simp [constructedClass, isConstructor, inside, resolve, stored, Except.mapError, bind,
    Except.bind, expected]

/-- The answer depends on the delegating calls in the body alone. -/
theorem Store.callsSuper_eq (body : Node) : store.callsSuper constructor body =
    match body.delegations with
    | [] => .error (.noDelegatingCall data.classId.display)
    | [target] =>
      if target = store.superclassOf data.supertypes then .ok true
      else if target = data.classId then .ok false
      else .error (.unrelatedDelegatingCall data.classId.display target.display
        (store.superclassOf data.supertypes).display)
    | _ => .error (.multipleDelegatingCalls data.classId.display) := by
  rw [callsSuper, constructedClass_eq isConstructor inside stored isClass,
    body.delegationTargets_eq]
  rfl

/-- Of a constructor whose class is stored, and any body, the answer is decided by the delegating
calls in the body outside classes. There is a failure if there is none, and if there are two or
more. The only one may call the superclass, the class itself, and no other class. -/
theorem callsSuper_exact (body : Node) :
    (∀ name, store.callsSuper constructor body = .error (.noDelegatingCall name) ↔
      body.delegations.length = 0 ∧ name = data.classId.display) ∧
    (∀ name, store.callsSuper constructor body = .error (.multipleDelegatingCalls name) ↔
      2 ≤ body.delegations.length ∧ name = data.classId.display) ∧
    ∃ superclass, (∀ id, store.Superclass data.supertypes id ↔ id = superclass) ∧
      ∀ target, body.delegations = [target] →
        (store.callsSuper constructor body = .ok true ↔ target = superclass) ∧
        (store.callsSuper constructor body = .ok false ↔
          target = data.classId ∧ target ≠ superclass) ∧
        ∀ name called expected,
          store.callsSuper constructor body =
            .error (.unrelatedDelegatingCall name called expected) ↔
            (target ≠ superclass ∧ target ≠ data.classId) ∧ name = data.classId.display ∧
            called = target.display ∧
              expected = superclass.display := by
  simp only [Store.callsSuper_eq isConstructor inside stored isClass]
  refine ⟨fun name => ?_, fun name => ?_, store.superclassOf data.supertypes,
    fun id => Store.superclass_iff, ?_⟩
  · match body.delegations with
    | [] => simp [eq_comm]
    | [target] => grind
    | _ :: _ :: _ => simp
  · match body.delegations with
    | [] => simp
    | [target] => grind
    | _ :: _ :: _ => simp [eq_comm]
  · intro target only
    rw [only]
    grind

end Constructors

/-- An interface `Named`, a class `Base`, and a class `Derived` that extends them. -/
def derivedStore : Store := Store.empty.insertAll [
  { id := ⟨1⟩, name := "Named", container := none
    kind := .classifier { classId := ⟨"", "Named", false⟩, kind := .interface } },
  { id := ⟨2⟩, name := "Base", container := none,
    kind := .classifier { classId := ⟨"", "Base", false⟩ } },
  { id := ⟨3⟩, name := "Derived", container := none
    kind := .classifier {
      classId := ⟨"", "Derived", false⟩
      supertypes := [.ofClass ⟨"", "Named", false⟩, .ofClass ⟨"", "Base", false⟩] } }]

def derivedConstructor : Declaration where
  id := ⟨4⟩
  name := "<init>"
  container := some ⟨3⟩
  kind := .constructor { returnType := .unit }

def delegation (target : String) (arguments : List Node) : Node :=
  .mk .undefined .unit (.delegatingCall ⟨"", target, false⟩ .invalid arguments)

/-- A class with a call of a constructor of `Derived` is tried, and what is thrown leads to
`result`. -/
def attempted (result : Node) : Node :=
  .mk .undefined .unit (.tryCatch (.mk .undefined .unit (.classBody ⟨5⟩ [delegation "Derived" []]))
    [.mk .undefined ⟨6⟩ .unit result] none)

/-- The call in the class does not count, and one in an argument of another one does. -/
theorem callsSuper_exact_of_attempted :
    derivedStore.callsSuper derivedConstructor (attempted (delegation "Base" [])) = .ok true ∧
    derivedStore.callsSuper derivedConstructor
      (attempted (delegation "Base" [delegation "Derived" []])) =
      .error (.multipleDelegatingCalls (ClassId.display ⟨"", "Derived", false⟩)) := by
  have exact (body : Node) :=
    @callsSuper_exact derivedStore derivedConstructor _ _ ⟨3⟩ _ rfl rfl rfl rfl body
  constructor
  · obtain ⟨-, -, superclass, only, answers⟩ := exact (attempted (delegation "Base" []))
    have base : derivedStore.Superclass [.ofClass ⟨"", "Named", false⟩,
      .ofClass ⟨"", "Base", false⟩] ⟨"", "Base", false⟩ :=
      Store.superclass_iff.2 (by decide +kernel)
    exact (answers ⟨"", "Base", false⟩ rfl).1.2 ((only _).1 base)
  · exact ((exact _).2.1 _).2 ⟨by decide, rfl⟩

end ClassSymbols
