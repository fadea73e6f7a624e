import ClassSymbols.Store.Basic
import ClassSymbols.Tree.Builder

/-!
# Delegating constructors

A constructor calls a constructor of its own class or of its superclass. Which one is read off its
body, leaving out the classes inside it.

## Main definitions

* `Node.delegationTargets` — the classes whose constructors a body calls in this way.
* `Store.superclassOf` — the superclass among the supertypes of a class.
* `Store.callsSuper` — whether a constructor delegates to the superclass.
-/

namespace ClassSymbols

def Node.delegationTarget? (node : Node) : Option ClassId :=
  match node.kind with
  | .delegatingCall target _ _ => some target
  | _ => none

def outsideClasses (node : Node) : Descent :=
  match node.kind with
  | .classBody _ _ => .skip
  | _ => .enter

/-- The classes whose constructors are called in delegation outside the classes in a body, in the
order of the calls. -/
def Node.delegationTargets (body : Node) : List ClassId :=
  (body.walk outsideClasses).filterMap (·.delegationTarget?)

namespace Store

def isRegularClass (store : Store) (id : ClassId) : Bool :=
  match ((store.findClass? id).bind store.get?).bind (·.class?) with
  | some data => data.kind != .interface
  | none => false

/-- The first of some supertypes whose class is stored and no interface, or the root class. -/
def superclassOf (store : Store) (supertypes : List Ty) : ClassId :=
  ((supertypes.filterMap (·.classId?)).find? store.isRegularClass).getD .any

/-- The payload of the class that contains a constructor. -/
def constructedClass (store : Store) (constructor : Declaration) :
    Except TreeError ClassData :=
  match constructor.kind with
  | .constructor _ =>
    match constructor.container with
    | none => .error (constructor.unexpected "a constructor inside a class")
    | some owner => do
      let declaration ← (store.resolve owner).mapError .symbol
      declaration.expectClass
  | _ => .error (constructor.unexpected "a constructor")

/-- Whether the only delegating call in the body of a constructor targets the superclass. A call of
the constructor's own class does not; a call of any other class is a failure. -/
def callsSuper (store : Store) (constructor : Declaration) (body : Node) :
    Except TreeError Bool := do
  let data ← store.constructedClass constructor
  let superclass := store.superclassOf data.supertypes
  match body.delegationTargets with
  | [] => throw (.noDelegatingCall data.classId.display)
  | [target] =>
    if target = superclass then return true
    else if target = data.classId then return false
    else
      throw (.unrelatedDelegatingCall data.classId.display target.display superclass.display)
  | _ => throw (.multipleDelegatingCalls data.classId.display)

end Store

end ClassSymbols
