import ClassSymbols.Overrides.Set

/-!
# Member scopes

Queries by name and by kind over a list of declarations, typically the effective members of a class.

## Main definitions

* `MemberScope` — the lists.
* `MemberScope.findType`, `MemberScope.properties`, `MemberScope.functions`,
  `MemberScope.filtered` — the queries.
-/

namespace ClassSymbols

/-- Which kinds of declarations a query accepts. -/
structure KindFilter where
  classifiers : Bool := false
  functions : Bool := false
  values : Bool := false
  constructors : Bool := false
  packages : Bool := false
  deriving DecidableEq, Repr

namespace KindFilter

/-- The filter of a bit set: classifiers, functions, variables, constructors and packages, from the
lowest bit on. Other bits are ignored. -/
def ofBits (bits : Nat) : KindFilter where
  classifiers := bits.testBit 0
  functions := bits.testBit 1
  values := bits.testBit 2
  constructors := bits.testBit 3
  packages := bits.testBit 4

/-- Whether a query accepts a declaration. A holder of type parameters is of no kind. -/
def accepts (filter : KindFilter) (declaration : Declaration) : Bool :=
  match declaration.kind with
  | .classifier _ => filter.classifiers
  | .function _ => filter.functions
  | .property _ | .localVariable _ => filter.values
  | .constructor _ => filter.constructors
  | .module | .package _ => filter.packages
  | .holder _ => false

end KindFilter

/-- The declarations that can be found in a scope. -/
structure MemberScope where
  declarations : List Declaration

namespace MemberScope

def ofIds (store : Store) (ids : List DeclId) : Except SymbolError MemberScope := do
  return ⟨← ids.mapM store.resolve⟩

def ofSet (store : Store) (set : OverrideSet) : Except SymbolError MemberScope :=
  ofIds store set.memberIds

def named (scope : MemberScope) (name : String) (isOfKind : DeclKind → Bool) : List Declaration :=
  scope.declarations.filter fun declaration => declaration.name == name && isOfKind declaration.kind

/-- The only class called `name`, if there is one. More than one is a failure. -/
def findType (scope : MemberScope) (name : String) : Except SymbolError (Option Declaration) :=
  let isClass : DeclKind → Bool := fun
    | .classifier _ => true
    | _ => false
  match scope.named name isClass with
  | [] => .ok none
  | [declaration] => .ok (some declaration)
  | several => .error (.ambiguousLookup name several.length)

/-- The properties called `name`. Local variables are none. -/
def properties (scope : MemberScope) (name : String) : List Declaration :=
  scope.named name fun
    | .property _ => true
    | _ => false

def functions (scope : MemberScope) (name : String) : List Declaration :=
  scope.named name fun
    | .function _ => true
    | _ => false

def filtered (scope : MemberScope) (kinds : KindFilter) (names : String → Bool) :
    List Declaration :=
  scope.declarations.filter fun declaration =>
    kinds.accepts declaration && names declaration.name

end MemberScope

end ClassSymbols
