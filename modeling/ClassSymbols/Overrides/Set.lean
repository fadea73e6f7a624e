import ClassSymbols.Declaration.Render
import ClassSymbols.Store.Basic

/-!
# Override sets

The effective members of a class: those that it declares, and one for each group of inherited
members that stand for the same declaration. With them come the members that each of them overrides,
and the conflicts that were found.

## Main definitions

* `OverrideSet` — the effective members of a class, grouped by name.
* `Conflict` — two members that cannot be in one class.
* `OverrideSynthesis` — a set with its conflicts and with the declarations that were made for it.
* `OverrideSynthesis.register`, `OverrideSynthesis.conflictError` — what becomes of a synthesis.
-/

namespace ClassSymbols

/-- How a member came to be one of a class: it is declared there; it is inherited from one supertype
member and looks like it; or it stands for several supertype members or for one that looks
different in the class. -/
inductive MemberOrigin where
  | declared
  | inherited
  | bridge
  deriving DecidableEq, Repr

def MemberOrigin.label : MemberOrigin → String
  | .declared => "declared"
  | .inherited => "inherited"
  | .bridge => "bridge"

/-- A member of a class, with the way in which it came to be one. -/
structure EffectiveMember where
  id : DeclId
  origin : MemberOrigin
  deriving DecidableEq, Repr

/-- Why two members cannot be in one class: they are inherited, look alike and do not stand for the
same declaration; or the first one is declared and does not validly override the second one. -/
inductive ConflictKind where
  | inheritedClash
  | incompatibleOverride (reason : String)
  deriving DecidableEq, Repr

/-- Two members called `name` that cannot be in one class. -/
structure Conflict where
  name : String
  first : DeclId
  second : DeclId
  kind : ConflictKind
  deriving DecidableEq, Repr

/-- The signature of a stored declaration, or the id itself. -/
def Store.signatureText (store : Store) (id : DeclId) : String :=
  match store.get? id with
  | some declaration => declaration.render
  | none => id.display

def Conflict.report (conflict : Conflict) (store : Store) : ConflictReport where
  first := conflict.first
  second := conflict.second
  firstSignature := store.signatureText conflict.first
  secondSignature := store.signatureText conflict.second
  declared := match conflict.kind with
    | .inheritedClash => false
    | .incompatibleOverride _ => true

/-- The effective members of a class by name, and the supertype members that each of them overrides.
The names of declared members come first, in the order of their declarations, then those of
inherited ones in the order of the supertypes. -/
structure OverrideSet where
  owner : DeclId
  groups : OrderedMap String (List EffectiveMember) := .empty
  overridden : OrderedMap DeclId (List DeclId) := .empty

namespace OverrideSet

def push (set : OverrideSet) (name : String) (member : EffectiveMember) : OverrideSet :=
  { set with groups := set.groups.alter name fun group => group.getD [] ++ [member] }

def recordOverridden (set : OverrideSet) (member overridden : DeclId) : OverrideSet :=
  { set with
    overridden := set.overridden.alter member fun list =>
      let list := list.getD []
      if list.contains overridden then list else list ++ [overridden] }

def group (set : OverrideSet) (name : String) : List EffectiveMember :=
  (set.groups.get? name).getD []

def members (set : OverrideSet) : List EffectiveMember := set.groups.values.flatten

/-- The ids of all members, group by group. -/
def memberIds (set : OverrideSet) : List DeclId := set.members.map (·.id)

/-- How the first member with an id came to be one. -/
def origin? (set : OverrideSet) (id : DeclId) : Option MemberOrigin :=
  (set.members.find? (·.id == id)).map (·.origin)

def overriddenBy (set : OverrideSet) (member : DeclId) : List DeclId :=
  (set.overridden.get? member).getD []

def size (set : OverrideSet) : Nat := set.groups.values.flatten.length

def isEmpty (set : OverrideSet) : Bool := set.groups.isEmpty

end OverrideSet

/-- A set of effective members, the conflicts that were found, and the declarations that were made
for the set and are not stored yet. -/
structure OverrideSynthesis where
  set : OverrideSet
  conflicts : List Conflict
  pending : List Declaration

namespace OverrideSynthesis

def hasConflicts (synthesis : OverrideSynthesis) : Bool := !synthesis.conflicts.isEmpty

/-- The synthesis and the store once the pending declarations are stored. -/
def register (synthesis : OverrideSynthesis) (store : Store) : OverrideSynthesis × Store :=
  ({ synthesis with pending := [] }, store.insertAll synthesis.pending)

def conflictError (synthesis : OverrideSynthesis) (store : Store) : SymbolError :=
  .overrideConflict
    (match store.get? synthesis.set.owner with
      | some owner => owner.name
      | none => synthesis.set.owner.display)
    (synthesis.conflicts.map (·.report store))

/-- The set of a synthesis without conflicts, once its pending declarations are stored. -/
def intoSet (synthesis : OverrideSynthesis) : StoreM OverrideSet := fun store =>
  if synthesis.conflicts.isEmpty then .ok synthesis.set (synthesis.register store).2
  else .error (synthesis.conflictError store) store

end OverrideSynthesis

end ClassSymbols
