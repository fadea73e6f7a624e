import ClassSymbols.Data.OrderedMap
import ClassSymbols.DeclMap
import ClassSymbols.Declaration.Basic
import ClassSymbols.SymbolError

/-!
# Declaration stores

A store owns declarations under their ids, finds classes by class id, and gives out ids. An id is
reserved before its declaration is built, since the declaration's own type parameters refer to it; a
reserved id under which nothing is stored stays unused.

Operations that change a store run in `StoreM`. What they did before they failed stays done.

## Main definitions

* `Store` — the stores.
* `Store.insert`, `Store.reserve`, `Store.setMembers` — the three ways to change a store.
* `Store.get?`, `Store.resolve`, `Store.findClass?` — what a store answers.
* `StoreM` — computations on a store.
-/

namespace ClassSymbols

/-- Declarations under their ids, class declarations by class id, and the next id to be given
out. -/
structure Store where
  declarations : DeclMap Declaration := .empty
  classes : OrderedMap ClassId DeclId := .empty
  next : DeclId := .first

namespace Store

def empty : Store := {}

instance : Inhabited Store := ⟨empty⟩

def get? (store : Store) (id : DeclId) : Option Declaration := store.declarations.get? id

def resolve (store : Store) (id : DeclId) : Except SymbolError Declaration :=
  match store.get? id with
  | some declaration => .ok declaration
  | none => .error (.unknownDeclaration id)

def contains (store : Store) (id : DeclId) : Bool := store.declarations.contains id

/-- The declaration that was last stored for a class id. -/
def findClass? (store : Store) (id : ClassId) : Option DeclId := store.classes.get? id

def ids (store : Store) : List DeclId := store.declarations.keys

def size (store : Store) : Nat := store.declarations.size

def isEmpty (store : Store) : Bool := store.declarations.isEmpty

/-- Stores a declaration under its own id. A class is found by its class id from then on. -/
def insert (store : Store) (declaration : Declaration) : Store :=
  { store with
    declarations := store.declarations.insert declaration.id declaration
    classes := match declaration.kind with
      | .classifier data => store.classes.insert data.classId declaration.id
      | _ => store.classes }

def insertAll (store : Store) (declarations : List Declaration) : Store :=
  declarations.foldl insert store

def reserve (store : Store) : Store := { store with next := store.next.next }

/-- Notes the members that were read for a class whose members are read when first asked for. -/
def setMembers (store : Store) (id : DeclId) (members : List DeclId) : Store :=
  match store.get? id with
  | some declaration =>
    match declaration.kind with
    | .classifier data =>
      match data.members with
      | .deferred deferred =>
        { store with
          declarations := store.declarations.insert id
            { declaration with
              kind := .classifier
                { data with members := .deferred { deferred with loaded := some members } } } }
      | .eager _ => store
    | _ => store
  | none => store

end Store

/-- Computations on a store that may fail. A failure keeps the changes made before it. -/
abbrev StoreM := EStateM SymbolError Store

namespace StoreM

/-- The result of a computation that only reads the store. -/
def reading {α : Type} (f : Store → Except SymbolError α) : StoreM α := fun store =>
  match f store with
  | .ok a => .ok a store
  | .error e => .error e store

def ofExcept {α : Type} (result : Except SymbolError α) : StoreM α := reading fun _ => result

def reserve : StoreM DeclId := fun store => .ok store.next store.reserve

/-- Stores a declaration and gives its id. -/
def insert (declaration : Declaration) : StoreM DeclId := fun store =>
  .ok declaration.id (store.insert declaration)

def insertAll (declarations : List Declaration) : StoreM (List DeclId) := fun store =>
  .ok (declarations.map (·.id)) (store.insertAll declarations)

end StoreM

/-- The dotted names from the package fragment of a context down to its innermost declaration. An id
under which nothing is stored is shown itself. -/
def ScopeContext.path (context : ScopeContext) (store : Store) : String :=
  Text.dotted ((context.fragment :: context.declarations).map fun id =>
    match store.get? id with
    | some declaration => declaration.name
    | none => id.display)

end ClassSymbols
