import ClassSymbols.Data.OrderedMap
import ClassSymbols.Ty.Builtin

/-!
# Substitutions

A substitution replaces type parameters, told apart by their owner and their index, by types.

## Main definitions

* `Substitution` — the substitutions.
* `Ty.substitute` — a type with its parameters replaced.
* `Substitution.ofSupertype` — the parameters of a class replaced by the arguments of a type.
* `Substitution.compose` — one substitution after another.
-/

namespace ClassSymbols

/-- Replacement types for type parameters, by owner and index. -/
abbrev Substitution := OrderedMap (DeclId × Nat) Ty

namespace Substitution

def identity : Substitution := .empty

def replacement? (substitution : Substitution) (ref : ParameterRef) : Option Ty :=
  substitution.get? (ref.owner, ref.index)

/-- The type that an argument of a supertype puts in the place of a parameter. -/
def replacementOfArgument : TypeArgument → Ty
  | .star => .nullableAny
  | .projected _ type => type

/-- Replaces the parameters of `owner` by the arguments of `supertype`, in their order. A star
projection becomes the type above all others; a parameter without an argument is not replaced. -/
def ofSupertype (owner : DeclId) (supertype : Ty) : Substitution :=
  .ofList (supertype.arguments.zipIdx.map fun (argument, index) =>
    ((owner, index), replacementOfArgument argument))

end Substitution

def Ty.substitute (type : Ty) (substitution : Substitution) : Ty :=
  type.mapParameters substitution.replacement?

namespace Substitution

/-- The substitution that applies `inner` and then `outer`: the replacements of `inner` with `outer`
applied to them, and those of `outer` for which `inner` has none. -/
def compose (outer inner : Substitution) : Substitution :=
  .ofList (inner.entries.map (fun (key, type) => (key, type.substitute outer)) ++
    outer.entries.filter fun (key, _) => !inner.contains key)

end Substitution

end ClassSymbols
