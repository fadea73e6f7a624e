import ClassSymbols.Loading.Record
import ClassSymbols.Store.Basic

/-!
# Members of classes

Each record that is read uses up one id, whether it can be read or not. The members of a class are
stored together once all of them have been read, so a failure stores nothing.

## Main definitions

* `Site.loadClass`, `Site.loadFunction`, `Site.loadConstructor`, `Site.loadProperty` — a record read
  under a fresh id.
* `classMembers` — the members of a class, read when first asked for.
-/

namespace ClassSymbols

namespace Site

def loadClass (site : Site) (record : ClassRecord) : StoreM Declaration := do
  let id ← StoreM.reserve
  StoreM.ofExcept (site.readClass id record)

def loadFunction (site : Site) (record : FunctionRecord) : StoreM Declaration := do
  let id ← StoreM.reserve
  StoreM.ofExcept (site.readFunction id record)

def loadProperty (site : Site) (record : PropertyRecord) : StoreM Declaration := do
  let id ← StoreM.reserve
  StoreM.ofExcept (site.readProperty id record)

def ownerClass (site : Site) (store : Store) : Except SymbolError (DeclId × ClassData) := do
  let owner ← store.resolve site.context.owner
  match owner.class? with
  | some data => return (owner.id, data)
  | none =>
    throw (.malformedChain ("constructor declared in " ++ owner.kind.label ++ " `" ++ owner.name ++
      "` instead of a class"))

/-- The constructor of a record, under a fresh id. The id is given out only if the site is inside a
class. -/
def loadConstructor (site : Site) (record : ConstructorRecord) : StoreM Declaration := do
  let (owner, data) ← StoreM.reading site.ownerClass
  let id ← StoreM.reserve
  StoreM.ofExcept (site.readConstructor owner data id record)

end Site

def ScopeContext.site (context : ScopeContext) (store : Store) : Site :=
  ⟨context, context.path store⟩

/-- The members of a class record: constructors, functions, properties and nested classes, in this
order. -/
def readMembers (record : ClassRecord) (context : ScopeContext) : StoreM (List Declaration) := do
  let site := context.site (← get)
  let constructors ← record.constructors.mapM site.loadConstructor
  let functions ← record.functions.mapM site.loadFunction
  let properties ← record.properties.mapM site.loadProperty
  let nestedClasses ← record.nestedClasses.mapM site.loadClass
  return constructors ++ functions ++ properties ++ nestedClasses

/-- Reads and stores the members of the class `id`, and notes that they have been read unless one of
them took the place of the class in the store. -/
def loadMembers (id : DeclId) (deferred : LazyMembers) : StoreM (List DeclId) := do
  let declarations ← readMembers deferred.record deferred.context
  let members ← StoreM.insertAll declarations
  unless members.contains id do
    modify (·.setMembers id members)
  return members

/-- The members of a class. Members that have not been read yet are read and stored first. -/
def classMembers (id : DeclId) : StoreM (List DeclId) := do
  let declaration ← StoreM.reading (·.resolve id)
  match declaration.class? with
  | none =>
    throw (.malformedChain ("`" ++ declaration.name ++ "` is a " ++ declaration.kind.label ++
      ", not a class"))
  | some data =>
    match data.members with
    | .eager members => return members
    | .deferred deferred =>
      match deferred.loaded with
      | some members => return members
      | none => loadMembers id deferred

end ClassSymbols
