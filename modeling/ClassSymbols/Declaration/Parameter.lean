import ClassSymbols.Ty.Basic

/-!
# Parameters and annotations

## Main definitions

* `TypeParameter`, `ValueParameter` — the parameters of declarations.
* `TypeParameter.asType` — the type that refers to a type parameter.
* `Annotation` — an annotation of a declaration.
-/

namespace ClassSymbols

/-- An annotation: the class that it is an instance of. -/
structure Annotation where
  classId : ClassId
  deriving DecidableEq, Repr

/-- A type parameter. `id` tells it apart inside its package fragment, `owner` and `index`
everywhere. -/
structure TypeParameter where
  id : UInt32
  name : String
  index : Nat
  owner : DeclId
  variance : Variance := .invariant
  reified : Bool := false
  upperBounds : List Ty := []
  deriving DecidableEq

def TypeParameter.asRef (parameter : TypeParameter) : ParameterRef :=
  ⟨parameter.owner, parameter.index, parameter.name⟩

def TypeParameter.asType (parameter : TypeParameter) : Ty :=
  .ofParameter parameter.owner parameter.index parameter.name

/-- A value parameter. A parameter that takes any number of arguments has an element type. -/
structure ValueParameter where
  name : String
  type : Ty
  varargElement : Option Ty := none
  declaresDefault : Bool := false
  isCrossinline : Bool := false
  isNoinline : Bool := false
  annotations : List Annotation := []
  deriving DecidableEq

end ClassSymbols
