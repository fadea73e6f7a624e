import ClassSymbols.Loading.Members
import ClassSymbols.Table.SymbolTable

/-!
# Modules

The declarations that everything else is contained in: the module of a symbol table, its package
fragments and their top-level classes.

## Main definitions

* `LoadedModule`, `LoadedFragment` — the ids of what was loaded.
* `loadAll` — the module with all its fragments and top-level classes.
* `findMemberPath` — the declaration that a dotted path leads to.
-/

namespace ClassSymbols

/-- The ids of a loaded package fragment and of its top-level classes. -/
structure LoadedFragment where
  id : DeclId
  classes : List DeclId
  deriving DecidableEq

/-- The ids of a loaded module and of its package fragments. -/
structure LoadedModule where
  module : DeclId
  fragments : OrderedMap String LoadedFragment

def loadModule (table : SymbolTable) : StoreM DeclId := do
  let id ← StoreM.reserve
  StoreM.insert { id, name := table.module, container := none, kind := .module }

def readFragment (table : SymbolTable) (name : String) : Except SymbolError PackageData := do
  let names ← (table.nameTable name).mapError .ofTableError
  let types ← (table.packageTypes name).mapError .ofTableError
  return { qualifiedName := name, names, types }

def loadFragment (table : SymbolTable) (module : DeclId) (name : String) : StoreM DeclId := do
  let data ← StoreM.ofExcept (readFragment table name)
  let id ← StoreM.reserve
  StoreM.insert { id, name, container := some module, kind := .package data }

/-- Stores the top-level classes of a package fragment, in the order of their records: all of them
or, if one cannot be read, none. -/
def loadTopLevelClasses (table : SymbolTable) (fragment : Declaration) :
    StoreM (List DeclId) := do
  match fragment.package? with
  | none =>
    throw (.malformedChain ("top-level classes requested from " ++ fragment.kind.label ++ " `" ++
      fragment.name ++ "`"))
  | some data =>
    let context := ScopeContext.ofFragment fragment.id data.names data.types
    let site := context.site (← get)
    let records ← StoreM.ofExcept ((table.classes data.qualifiedName).mapError .ofTableError)
    let declarations ← records.mapM site.loadClass
    StoreM.insertAll declarations

def loadFragmentWithClasses (table : SymbolTable) (module : DeclId) (name : String) :
    StoreM LoadedFragment := do
  let id ← loadFragment table module name
  let fragment ← StoreM.reading (·.resolve id)
  let classes ← loadTopLevelClasses table fragment
  return { id, classes }

def loadAll (table : SymbolTable) : StoreM LoadedModule := do
  let module ← loadModule table
  let fragments ← table.fragmentNames.mapM fun name => do
    return (name, ← loadFragmentWithClasses table module name)
  return { module, fragments := .ofList fragments }

/-! ## Member paths -/

def findNamed? (store : Store) (candidates : List DeclId) (name : String) : Option DeclId :=
  candidates.find? fun id => (store.get? id).any (·.name == name)

def membersIfClass (id : DeclId) : StoreM (List DeclId) := do
  let store ← get
  if (store.get? id).any (·.class?.isSome) then classMembers id else return []

/-- The declaration that `names` lead to from `found`, of which `candidates` are the members. `path`
is the whole path. -/
def followPath (path : String) (found : DeclId) (candidates : List DeclId) :
    List String → StoreM DeclId
  | [] => return found
  | name :: rest => do
    match findNamed? (← get) candidates name with
    | none =>
      throw (.malformedChain ("no declaration `" ++ name ++ "` on path `" ++ path ++ "`"))
    | some id => followPath path id (← membersIfClass id) rest

/-- The declaration that a dotted path leads to from a package fragment. The first name is that of a
top-level class, every later one that of a member of the class reached so far; of several members of
one name the first is taken. -/
def findMemberPath (fragment : LoadedFragment) (path : String) : StoreM DeclId :=
  followPath path fragment.id fragment.classes (Text.dottedSegments path)

end ClassSymbols
