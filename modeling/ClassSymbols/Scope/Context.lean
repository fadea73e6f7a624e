import ClassSymbols.Scope.Parameters
import ClassSymbols.Table.Names
import ClassSymbols.Table.Types

/-!
# Scope contexts

Everything that is needed to read one declaration: the name table of its package fragment, the type
table that its references resolve against, the type parameters in scope and the declarations around
it.

## Main definitions

* `ScopeContext` — the contexts.
* `ScopeContext.ofFragment` — the outermost context of a package fragment.
* `ScopeContext.enter` — the context inside a further declaration.
* `ScopeContext.withParameters` — the context with further type parameters in scope.
-/

namespace ClassSymbols

/-- What can be referred to at some point of a package fragment. `declarations` are the enclosing
declarations below the fragment, the outermost first. -/
structure ScopeContext where
  fragment : DeclId
  names : NameTable
  types : TypeTable
  parameters : ParameterScope := .empty
  declarations : List DeclId := []

namespace ScopeContext

def ofFragment (fragment : DeclId) (names : NameTable) (types : TypeTable) : ScopeContext :=
  { fragment, names, types }

/-- The context of the declarations inside `declaration`, whose type parameters come into scope. A
class brings its own type table, any other declaration none. -/
def enter (context : ScopeContext) (declaration : DeclId) (parameters : List TypeParameter)
    (types : Option TypeTable) : ScopeContext :=
  { context with
    types := types.getD context.types
    parameters := context.parameters.push parameters
    declarations := context.declarations ++ [declaration] }

def withParameters (context : ScopeContext) (parameters : List TypeParameter) : ScopeContext :=
  { context with parameters := context.parameters.push parameters }

/-- The innermost enclosing declaration, which is the package fragment at the top level. -/
def owner (context : ScopeContext) : DeclId :=
  context.declarations.getLastD context.fragment

end ScopeContext

end ClassSymbols
