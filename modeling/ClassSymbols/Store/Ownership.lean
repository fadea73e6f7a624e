import ClassSymbols.Limits
import ClassSymbols.Store.Basic

/-!
# Ownership chains

The containers of a declaration, from its module down to the declaration itself. Containers may form
a cycle or lead nowhere, so they are followed for a limited number of declarations.

## Main definitions

* `Store.ownershipChain` — the chain of a declaration.
-/

namespace ClassSymbols

namespace Store

/-- The chain that ends with the declarations `below`, of which `id` names the container of the
first one, with room for a number of further declarations. `start` is where the chain began. -/
def chainFrom (store : Store) (start : DeclId) :
    Nat → DeclId → List Declaration → Except SymbolError (List Declaration)
  | 0, _, _ =>
    .error (.malformedChain ("ownership chain of " ++ start.display ++ " exceeds " ++
      toString Limits.ownershipDepth ++ " declarations"))
  | room + 1, id, below => do
    let declaration ← store.resolve id
    if below.any (·.id == declaration.id) then
      throw (.malformedChain ("ownership chain of " ++ start.display ++ " is cyclic at `" ++
        declaration.name ++ "`"))
    match declaration.container with
    | some container => chainFrom store start room container (declaration :: below)
    | none =>
      if declaration.isModule then return declaration :: below
      else
        throw (.malformedChain ("ownership chain of " ++ start.display ++ " ends at " ++
          declaration.kind.label ++ " `" ++ declaration.name ++ "` instead of a module"))

/-- The declarations from the module that contains `id` down to `id` itself. -/
def ownershipChain (store : Store) (id : DeclId) : Except SymbolError (List Declaration) :=
  store.chainFrom id Limits.ownershipDepth id []

end Store

end ClassSymbols
