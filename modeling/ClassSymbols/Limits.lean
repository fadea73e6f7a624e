/-!
# Limits

Symbol tables are read from files and may be corrupt. Every walk over links that are acyclic by
convention only is bounded by one of these numbers, and passing the bound is an error or a refusal.

## Main definitions

* `Limits.ownershipDepth` — declarations on an ownership chain, and classes on a supertype path.
* `Limits.typeDepth` — nesting of a type, and links of a subtype derivation.
* `Limits.qualifiedNameDepth` — parent links of a qualified name.
-/

namespace ClassSymbols.Limits

/-- The most declarations on an ownership chain, and the most classes being resolved at once. -/
def ownershipDepth : Nat := 256

/-- The most levels of type arguments below the outermost type. -/
def typeDepth : Nat := 128

/-- The most entries on the parent path of a qualified name. -/
def qualifiedNameDepth : Nat := 256

end ClassSymbols.Limits
