import ClassSymbols.ClassId
import ClassSymbols.DeclId
import ClassSymbols.Dump.Modifiers

/-!
# Types

A resolved type: a class, or a type parameter of a known declaration, applied to arguments and
perhaps nullable. Types are compared by structure.

## Main definitions

* `Ty`, `TypeArgument` — the types and their arguments.
* `Ty.mapParameters` — the type in which references to type parameters are replaced.
* `Ty.mentions` — whether a type refers to a parameter of a declaration.
* `Ty.display`, `Ty.describe` — the text of a type, short and in full.

## Main statements

* `Ty.induction` — a property of all types follows if it passes from the types among the arguments
  to the type built from them.
-/

namespace ClassSymbols

/-- A reference to the type parameter number `index` of the declaration `owner`. -/
structure ParameterRef where
  owner : DeclId
  index : Nat
  name : String
  deriving DecidableEq, Repr

/-- What a type is built on. -/
inductive TypeHead where
  | classifier (id : ClassId)
  | parameter (ref : ParameterRef)
  deriving DecidableEq, Repr

mutual
/-- A type: a head applied to arguments. -/
inductive Ty where
  | mk (head : TypeHead) (arguments : List TypeArgument) (nullable : Bool)

/-- An argument of a type: any type at all, or a type with the way in which it may vary. -/
inductive TypeArgument where
  | star
  | projected (variance : Variance) (type : Ty)
end

/-! ## Equality and induction -/

mutual
def Ty.decEq : (s t : Ty) → Decidable (s = t)
  | .mk head arguments nullable, .mk head' arguments' nullable' =>
    if h : head = head' ∧ nullable = nullable' then
      match TypeArgument.decEqList arguments arguments' with
      | .isTrue e => .isTrue (by rw [h.1, h.2, e])
      | .isFalse e => .isFalse (by simp [e])
    else .isFalse (by simp only [Ty.mk.injEq]; exact fun e => h ⟨e.1, e.2.2⟩)

def TypeArgument.decEqList : (as bs : List TypeArgument) → Decidable (as = bs)
  | [], [] => .isTrue rfl
  | [], _ :: _ => .isFalse (by simp)
  | _ :: _, [] => .isFalse (by simp)
  | a :: as, b :: bs =>
    match TypeArgument.decEq a b with
    | .isTrue e =>
      match TypeArgument.decEqList as bs with
      | .isTrue es => .isTrue (by rw [e, es])
      | .isFalse es => .isFalse (by simp [es])
    | .isFalse e => .isFalse (by simp [e])

def TypeArgument.decEq : (a b : TypeArgument) → Decidable (a = b)
  | .star, .star => .isTrue rfl
  | .star, .projected _ _ => .isFalse (by simp)
  | .projected _ _, .star => .isFalse (by simp)
  | .projected variance type, .projected variance' type' =>
    if h : variance = variance' then
      match Ty.decEq type type' with
      | .isTrue e => .isTrue (by rw [h, e])
      | .isFalse e => .isFalse (by simp [e])
    else .isFalse (by simp [h])
end

instance : DecidableEq Ty := Ty.decEq

instance : DecidableEq TypeArgument := TypeArgument.decEq

mutual
/-- Induction on types through the types among their arguments. -/
theorem Ty.induction {P : Ty → Prop}
    (step : ∀ head arguments nullable,
      (∀ variance type, TypeArgument.projected variance type ∈ arguments → P type) →
      P (.mk head arguments nullable)) :
    ∀ type, P type
  | .mk head arguments nullable =>
    step head arguments nullable (Ty.induction_arguments step arguments)

private theorem Ty.induction_arguments {P : Ty → Prop}
    (step : ∀ head arguments nullable,
      (∀ variance type, TypeArgument.projected variance type ∈ arguments → P type) →
      P (.mk head arguments nullable)) :
    ∀ arguments : List TypeArgument, ∀ variance type,
      TypeArgument.projected variance type ∈ arguments → P type
  | [], _, _, h => by simp at h
  | argument :: rest, variance, type, h => by
    rcases List.mem_cons.1 h with e | h
    · exact Ty.induction_argument step argument variance type e.symm
    · exact Ty.induction_arguments step rest variance type h

private theorem Ty.induction_argument {P : Ty → Prop}
    (step : ∀ head arguments nullable,
      (∀ variance type, TypeArgument.projected variance type ∈ arguments → P type) →
      P (.mk head arguments nullable)) :
    ∀ argument : TypeArgument, ∀ variance type,
      argument = TypeArgument.projected variance type → P type
  | .star, _, _, e => by simp at e
  | .projected _ type', variance, type, e => by
    obtain ⟨_, rfl⟩ := TypeArgument.projected.inj e
    exact Ty.induction step type'
end

namespace TypeArgument

def invariant (type : Ty) : TypeArgument := .projected .invariant type

def type? : TypeArgument → Option Ty
  | .star => none
  | .projected _ type => some type

end TypeArgument

/-- The class or the type parameter that a text names before any arguments. -/
def TypeHead.display : TypeHead → String
  | .classifier id => id.display
  | .parameter ref => ref.name

namespace Ty

/-! ## Parts -/

def head : Ty → TypeHead
  | .mk head _ _ => head

def arguments : Ty → List TypeArgument
  | .mk _ arguments _ => arguments

def nullable : Ty → Bool
  | .mk _ _ nullable => nullable

@[simp] theorem head_mk (h as n) : (Ty.mk h as n).head = h := rfl
@[simp] theorem arguments_mk (h as n) : (Ty.mk h as n).arguments = as := rfl
@[simp] theorem nullable_mk (h as n) : (Ty.mk h as n).nullable = n := rfl

def ofClass (id : ClassId) : Ty := .mk (.classifier id) [] false

def ofParameter (owner : DeclId) (index : Nat) (name : String) : Ty :=
  .mk (.parameter ⟨owner, index, name⟩) [] false

def withArguments (type : Ty) (arguments : List TypeArgument) : Ty :=
  .mk type.head arguments type.nullable

def withNullable (type : Ty) (nullable : Bool) : Ty := .mk type.head type.arguments nullable

def makeNullable (type : Ty) : Ty := type.withNullable true

/-- The form of a type without `null`. -/
def makeNotNullable (type : Ty) : Ty := type.withNullable false

def classId? (type : Ty) : Option ClassId :=
  match type.head with
  | .classifier id => some id
  | .parameter _ => none

def parameter? (type : Ty) : Option ParameterRef :=
  match type.head with
  | .classifier _ => none
  | .parameter ref => some ref

/-! ## Replacing and finding parameters -/

end Ty

def TypeHead.replacement? (f : ParameterRef → Option Ty) : TypeHead → Option Ty
  | .classifier _ => none
  | .parameter ref => f ref

def TypeHead.isParameterOf (owner : DeclId) : TypeHead → Bool
  | .classifier _ => false
  | .parameter ref => ref.owner == owner

mutual
/-- The type in which every reference that `f` has a replacement for is replaced. The arguments of
a replaced reference are dropped; a replacement for a nullable reference is nullable. -/
def Ty.mapParameters (f : ParameterRef → Option Ty) : Ty → Ty
  | .mk head arguments nullable =>
    match head.replacement? f with
    | some replacement => if nullable then replacement.makeNullable else replacement
    | none => .mk head (TypeArgument.mapParametersList f arguments) nullable

def TypeArgument.mapParametersList (f : ParameterRef → Option Ty) :
    List TypeArgument → List TypeArgument
  | [] => []
  | argument :: rest =>
    TypeArgument.mapParameters f argument :: TypeArgument.mapParametersList f rest

def TypeArgument.mapParameters (f : ParameterRef → Option Ty) : TypeArgument → TypeArgument
  | .star => .star
  | .projected variance type => .projected variance (Ty.mapParameters f type)
end

@[simp] theorem TypeArgument.mapParametersList_eq_map (f : ParameterRef → Option Ty)
    (arguments : List TypeArgument) :
    TypeArgument.mapParametersList f arguments = arguments.map (TypeArgument.mapParameters f) := by
  induction arguments with
  | nil => rfl
  | cons argument rest ih => simp [TypeArgument.mapParametersList, ih]

mutual
def Ty.mentions (owner : DeclId) : Ty → Bool
  | .mk head arguments _ => head.isParameterOf owner || TypeArgument.mentionsList owner arguments

def TypeArgument.mentionsList (owner : DeclId) : List TypeArgument → Bool
  | [] => false
  | argument :: rest =>
    TypeArgument.mentions owner argument || TypeArgument.mentionsList owner rest

def TypeArgument.mentions (owner : DeclId) : TypeArgument → Bool
  | .star => false
  | .projected _ type => Ty.mentions owner type
end

/-! ## The text of a type -/

/-- The word before a projected argument, with a blank after it. -/
def Variance.display : Variance → String
  | .contravariant => "in "
  | .covariant => "out "
  | .invariant => ""

mutual
/-- The text of a type: its head, its arguments between angle brackets if it has any, and a question
mark if it is nullable. -/
def Ty.display : Ty → String
  | .mk head arguments nullable =>
    head.display ++
      (if arguments.isEmpty then ""
       else "<" ++ ", ".intercalate (TypeArgument.displayList arguments) ++ ">") ++
      (if nullable then "?" else "")

def TypeArgument.displayList : List TypeArgument → List String
  | [] => []
  | argument :: rest => TypeArgument.display argument :: TypeArgument.displayList rest

def TypeArgument.display : TypeArgument → String
  | .star => "*"
  | .projected variance type => variance.display ++ Ty.display type
end

/-! ## The full text of a type -/

/-- The class or the type parameter of a head, with the owner and the index of a parameter. -/
def TypeHead.describe : TypeHead → String
  | .classifier id => id.describe
  | .parameter ref =>
    ref.name ++ "@" ++ toString ref.owner.number ++ "." ++ toString ref.index

mutual
/-- The text of a type in which classes that are local and type parameters of one name are told
apart. -/
def Ty.describe : Ty → String
  | .mk head arguments nullable =>
    head.describe ++
      (if arguments.isEmpty then ""
       else "<" ++ ", ".intercalate (TypeArgument.describeList arguments) ++ ">") ++
      (if nullable then "?" else "")

def TypeArgument.describeList : List TypeArgument → List String
  | [] => []
  | argument :: rest => TypeArgument.describe argument :: TypeArgument.describeList rest

def TypeArgument.describe : TypeArgument → String
  | .star => "*"
  | .projected variance type => variance.display ++ Ty.describe type
end

end ClassSymbols
