import ClassSymbols.Store.Basic

/-!
# Context towers

The context in which the declarations inside a declaration are read, built layer by layer from the
chain of declarations around it: a module, a package fragment, and then declarations each of which
is contained in the one before. Classes bring a type table of their own; every other declaration
keeps the one of the nearest class or package fragment around it.

## Main definitions

* `Tower` — a chain with the context of its last declaration.
* `Tower.build` — the tower of a chain.
-/

namespace ClassSymbols

/-- A chain of declarations, a module and a package fragment first, with the context inside the last
one. -/
structure Tower where
  module : Declaration
  fragment : Declaration
  enclosing : List Declaration
  context : ScopeContext

namespace Tower

def chain (tower : Tower) : List Declaration :=
  tower.module :: tower.fragment :: tower.enclosing

def parent (tower : Tower) : Declaration := tower.enclosing.getLastD tower.fragment

def path (tower : Tower) : String :=
  Text.dotted ((tower.fragment :: tower.enclosing).map (·.name))

/-- Accepts a list of declarations each of which is contained in the one before. -/
def checkLinks : List Declaration → Except SymbolError Unit
  | outer :: inner :: rest =>
    if inner.container = some outer.id then checkLinks (inner :: rest)
    else
      .error (.malformedChain ("`" ++ inner.name ++ "` is not contained in `" ++ outer.name ++ "`"))
  | _ => .ok ()

/-- The context inside `declaration`, in the context around it. -/
def layer (context : ScopeContext) (declaration : Declaration) :
    Except SymbolError ScopeContext :=
  match declaration.kind with
  | .module | .package _ =>
    .error (.malformedChain (declaration.kind.label ++ " `" ++ declaration.name ++
      "` cannot enclose a local declaration"))
  | .classifier data =>
    .ok (context.enter declaration.id declaration.typeParameters (some data.types))
  | .function _ | .constructor _ | .property _ | .localVariable _ | .holder _ =>
    .ok (context.enter declaration.id declaration.typeParameters none)

def build (chain : List Declaration) : Except SymbolError Tower :=
  match chain with
  | [] => .error (.malformedChain "the enclosing chain is empty")
  | module :: rest => do
    if !module.isModule then
      throw (.malformedChain ("chain starts at " ++ module.kind.label ++ " `" ++ module.name ++
        "` instead of a module"))
    match rest with
    | [] =>
      throw (.malformedChain ("module `" ++ module.name ++
        "` is not followed by a package fragment"))
    | fragment :: enclosing =>
      match fragment.kind with
      | .package data => do
        checkLinks (module :: fragment :: enclosing)
        let context ← enclosing.foldlM layer (.ofFragment fragment.id data.names data.types)
        return { module, fragment, enclosing, context }
      | _ =>
        throw (.malformedChain ("expected a package fragment after module `" ++ module.name ++
          "`, found " ++ fragment.kind.label ++ " `" ++ fragment.name ++ "`"))

end Tower

end ClassSymbols
