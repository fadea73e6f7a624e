import ClassSymbols.Limits
import ClassSymbols.Store.Basic
import ClassSymbols.Ty.Substitution

/-!
# Subtyping

Whether a value of one type may stand where another type is expected. Any test of two types that may
look at a store decides this. Three tests have names, and each extends the one before: equality;
equality up to nullability with a least and a greatest type; and the one that also follows the
supertypes that classes list.

## Main definitions

* `TypeRelation` — the tests.
* `TypeRelation.exact`, `TypeRelation.structural`, `TypeRelation.hierarchy` — those that have names.
* `RelationKind.relation` — the test that a name stands for.
-/

namespace ClassSymbols

namespace Ty

/-- Equal types, the type without values below every type that is nullable if it is itself, every
type below the nullable root, and a type below its nullable form. -/
def structurallyBelow (sub sup : Ty) : Bool :=
  sub == sup ||
    (sub.isNothing && (!sub.nullable || sup.nullable)) ||
    (sup.isAny && sup.nullable) ||
    (!sub.nullable && sup.nullable && sub.makeNullable == sup)

end Ty

namespace TypeArgument

/-- Whether an argument may stand where another one is expected. `below` compares types. -/
def fits (typeBelow : Ty → Ty → Bool) : TypeArgument → TypeArgument → Bool
  | _, .star => true
  | .star, .projected _ _ => false
  | .projected variance type, .projected .covariant type' =>
    variance != .contravariant && typeBelow type type'
  | .projected variance type, .projected .contravariant type' =>
    variance != .covariant && typeBelow type' type
  | .projected variance type, .projected .invariant type' =>
    variance == .invariant && type == type'

end TypeArgument

/-- The supertypes that the class of a type lists, with the arguments of the type in the place of
the class's type parameters; none if no such class is stored. -/
def Store.supertypesOf (store : Store) (type : Ty) : List Ty :=
  match type.classId?.bind store.findClass? with
  | none => []
  | some id =>
    match (store.get? id).bind (·.class?) with
    | none => []
    | some data =>
      data.supertypes.map fun supertype =>
        (supertype.substitute (.ofSupertype id type)).withNullable type.nullable

/-- Whether `sub` is structurally below `sup`, or by way of the supertypes that classes list and of
the arguments of one class, in at most a number of steps. -/
def Store.belowWithin (store : Store) : Nat → Ty → Ty → Bool
  | 0, sub, sup => sub.structurallyBelow sup
  | room + 1, sub, sup =>
    sub.structurallyBelow sup ||
      if sub.nullable && !sup.nullable then false
      else if sup.isAny && !sub.nullable then true
      else
        match sub.classId?, sup.classId? with
        | some subClass, some supClass =>
          if subClass = supClass then
            sub.arguments.length == sup.arguments.length &&
              (sub.arguments.zip sup.arguments).all fun (a, b) =>
                a.fits (store.belowWithin room) b
          else (store.supertypesOf sub).any fun supertype => store.belowWithin room supertype sup
        | _, _ => false

/-- A relation by which the result types of overrides are compared: whether `sub` may stand where
`sup` is expected. Nothing is asked of it. The store is there for relations that look up classes. -/
structure TypeRelation where
  holds (store : Store) (sub sup : Ty) : Bool

namespace TypeRelation

/-- Equality. -/
def exact : TypeRelation := ⟨fun _ sub sup => sub == sup⟩

/-- Equality up to nullability, with a least and a greatest type. -/
def structural : TypeRelation := ⟨fun _ sub sup => sub.structurallyBelow sup⟩

/-- The relation that also follows the supertypes that classes list. -/
def hierarchy : TypeRelation := ⟨fun store sub sup => store.belowWithin Limits.typeDepth sub sup⟩

end TypeRelation

/-- The names of relations. -/
inductive RelationKind where
  | exact
  | structural
  | hierarchy
  deriving DecidableEq, Repr

instance : Inhabited RelationKind := ⟨.structural⟩

instance : Keyword RelationKind where
  all := [.exact, .structural, .hierarchy]
  text
    | .exact => "exact"
    | .structural => "structural"
    | .hierarchy => "hierarchy"

def RelationKind.relation : RelationKind → TypeRelation
  | .exact => .exact
  | .structural => .structural
  | .hierarchy => .hierarchy

end ClassSymbols
