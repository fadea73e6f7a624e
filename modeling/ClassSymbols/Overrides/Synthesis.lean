import ClassSymbols.Data.Forest
import ClassSymbols.Data.Reachability
import ClassSymbols.Overrides.Set
import ClassSymbols.Overrides.Signature

/-!
# Override synthesis

The effective members of one class, from its declared members and the effective members of its
supertypes. Inherited members are first checked against the declared members of their name. Those
that no declared member has the shape of fall into buckets of equal shape. A bucket whose members
all stand for the same declaration becomes one member of the class; any other bucket is a conflict.

## Main definitions

* `OverriddenLookup` — the members that a member overrides directly.
* `inheritedMembers` — what the supertypes have to offer.
* `clusters` — the members of a bucket that stand for the same declaration.
* `Declaration.fakeOverride` — the declaration that stands for a bucket in a class.
* `synthesize` — the effective members with the conflicts.
-/

namespace ClassSymbols

/-- The effective members of one direct supertype: the supertype as the class lists it, the
declaration of its class, and the members. -/
structure SupertypeMembers where
  supertype : Ty
  owner : DeclId
  members : List DeclId

/-- How effective members are computed. Unless `materialize` is set, a member that is inherited from
one supertype member and looks like it is represented by that member itself. -/
structure SynthesisOptions where
  relation : TypeRelation := (default : RelationKind).relation
  materialize : Bool := true

/-- The members that each member overrides directly. -/
abbrev OverriddenLookup := FiniteGraph DeclId

/-- The members that the stored declarations say that they override. -/
def Store.overridden (store : Store) (member : DeclId) : List DeclId :=
  match store.get? member with
  | some declaration => declaration.overridden
  | none => []

/-- The lookup that knows what the stored declarations say. -/
def Store.overriddenLookup (store : Store) : OverriddenLookup where
  successors := store.overridden
  support := store.ids
  mem_support member h :=
    DeclMap.mem_keys_of_get?_ne_none store.declarations (fun none => h (by
      simp only [Store.overridden, Store.get?, none]))

/-! ## Inherited members -/

/-- A member of a supertype, as the class sees it through the substitution of that supertype. -/
structure Inherited where
  declaration : Declaration
  substitution : Substitution
  signature : Signature

namespace Inherited

def id (member : Inherited) : DeclId := member.declaration.id

def unmodified (member : Inherited) : Bool :=
  Signature.of? member.declaration .identity == some member.signature

end Inherited

def listedMembers (supertypes : List SupertypeMembers) : List (DeclId × Substitution) :=
  supertypes.flatMap fun supertype =>
    supertype.members.map (·, Substitution.ofSupertype supertype.owner supertype.supertype)

/-- The first pair for each id, leaving out the ids that have been seen. -/
def firstOccurrences (seen : List DeclId) :
    List (DeclId × Substitution) → List (DeclId × Substitution)
  | [] => []
  | (id, substitution) :: rest =>
    if id ∈ seen then firstOccurrences seen rest
    else (id, substitution) :: firstOccurrences (id :: seen) rest

/-- A listed member as the class sees it. Members that subclasses do not inherit and members that
take no part in overriding are left out. -/
def inheritedMember? (store : Store) (listed : DeclId × Substitution) :
    Except SymbolError (Option Inherited) := do
  let (id, substitution) := listed
  let declaration ← store.resolve id
  if !declaration.visibility.isInheritable then return none
  match Signature.of? declaration substitution with
  | some signature => return some { declaration, substitution, signature }
  | none => return none

/-- The members that a class inherits, each once, seen through the first supertype that lists it. -/
def inheritedMembers (store : Store) (supertypes : List SupertypeMembers) :
    Except SymbolError (List Inherited) := do
  let members ← (firstOccurrences [] (listedMembers supertypes)).mapM (inheritedMember? store)
  return members.filterMap (fun member => member)

/-- Members by name, in the order of the first member of each name. -/
def groupByName (members : List Inherited) : OrderedMap String (List Inherited) :=
  members.foldl
    (fun groups member =>
      groups.alter member.declaration.name fun group => group.getD [] ++ [member])
    .empty

/-! ## Buckets -/

/-- Inherited members of one shape. -/
structure Bucket where
  first : Inherited
  others : List Inherited

def Bucket.members (bucket : Bucket) : List Inherited := bucket.first :: bucket.others

/-- The buckets with a further member in the first bucket of its shape, or in a new one at the
end. -/
def addToBuckets (member : Inherited) : List Bucket → List Bucket
  | [] => [⟨member, []⟩]
  | bucket :: rest =>
    if bucket.first.signature.SameShape member.signature then
      { bucket with others := bucket.others ++ [member] } :: rest
    else bucket :: addToBuckets member rest

/-- Members in buckets of equal shape, in the order of the first member of each shape. -/
def bucketByShape (members : List Inherited) : List Bucket :=
  members.foldl (fun buckets member => addToBuckets member buckets) []

def intersects (a b : List DeclId) : Bool := a.any fun x => b.any (x == ·)

/-- The positions of closures that meet, directly or by way of others: two members are related if
one overrides the other or both reach a common member. -/
def clusters (closures : List (List DeclId)) : List (List Nat) :=
  let linked i j :=
    match closures[i]?, closures[j]? with
    | some a, some b => intersects a b
    | _, _ => false
  (Forest.ofLinks closures.length linked).trees closures.length

/-- Whether no closure but the one at position `i` contains `id`. -/
def inNoOtherClosure (closures : List (List DeclId)) (i : Nat) (id : DeclId) : Bool :=
  closures.zipIdx.all fun (closure, j) => j == i || !closure.contains id

/-- The first member of a bucket that no other member overrides, or its first member. -/
def Bucket.mostSpecific (bucket : Bucket) (closures : List (List DeclId)) : Inherited :=
  match bucket.members.zipIdx.find? fun (member, i) => inNoOtherClosure closures i member.id with
  | some (member, _) => member
  | none => bucket.first

/-! ## Fake overrides -/

/-- The substitution that also gives the type parameters of `source` the owner `id`. -/
def Declaration.reown (source : Declaration) (id : DeclId) (substitution : Substitution) :
    Substitution :=
  source.typeParameters.foldl
    (fun substitution parameter =>
      substitution.insert (source.id, parameter.index)
        (.ofParameter id parameter.index parameter.name))
    substitution

def TypeParameter.instantiate (parameter : TypeParameter) (owner : DeclId)
    (substitution : Substitution) : TypeParameter :=
  { parameter with
    owner, upperBounds := parameter.upperBounds.map (·.substitute substitution) }

def ValueParameter.instantiate (parameter : ValueParameter) (substitution : Substitution) :
    ValueParameter :=
  { parameter with
    type := parameter.type.substitute substitution
    varargElement := parameter.varargElement.map (·.substitute substitution) }

/-- The payload of a member in another declaration, with its types substituted. -/
def DeclKind.instantiate (kind : DeclKind) (id : DeclId) (substitution : Substitution)
    (overridden : List DeclId) : DeclKind :=
  match kind with
  | .function data =>
    .function { data with
      typeParameters := data.typeParameters.map (·.instantiate id substitution)
      receiver := data.receiver.map (·.substitute substitution)
      valueParameters := data.valueParameters.map (·.instantiate substitution)
      returnType := data.returnType.substitute substitution
      overridden }
  | .property data =>
    .property { data with
      typeParameters := data.typeParameters.map (·.instantiate id substitution)
      receiver := data.receiver.map (·.substitute substitution)
      type := data.type.substitute substitution
      overridden }
  | other => other

/-- The copy of a function or property that stands for it in the class `owner`: a substitution is
applied to its types, and its own type parameters belong to the copy. -/
def Declaration.fakeOverride (source : Declaration) (id owner : DeclId)
    (substitution : Substitution) (overridden : List DeclId) : Declaration where
  id
  name := source.name
  container := some owner
  origin := .fakeOverride
  kind := source.kind.instantiate id (source.reown id substitution) overridden

/-! ## Synthesis -/

/-- What a synthesis has found so far, with the next id that it can reserve. -/
structure Progress where
  set : OverrideSet
  conflicts : List Conflict := []
  pending : List Declaration := []
  next : DeclId

/-- A declared member that takes part in overriding. -/
structure DeclaredMember where
  id : DeclId
  signature : Signature

/-- What stays the same in the course of a synthesis. -/
structure SynthesisInput where
  store : Store
  options : SynthesisOptions
  lookup : OverriddenLookup
  owner : DeclId
  declared : List Declaration

namespace SynthesisInput

def declaredNamed (input : SynthesisInput) (name : String) : List DeclaredMember :=
  input.declared.filterMap fun declaration =>
    if declaration.name = name then
      (Signature.of? declaration .identity).map (⟨declaration.id, ·⟩)
    else none

def check (input : SynthesisInput) (declared : DeclaredMember) (member : Inherited) :
    OverrideCheck :=
  declared.signature.check member.signature input.options.relation input.store

def isBound (input : SynthesisInput) (declared : List DeclaredMember) (member : Inherited) : Bool :=
  declared.any fun declared => input.check declared member != .unrelated

/-- Notes what the check of an inherited member against a declared one finds. -/
def bindTo (input : SynthesisInput) (name : String) (member : Inherited) (progress : Progress)
    (declared : DeclaredMember) : Progress :=
  match input.check declared member with
  | .overridable =>
    { progress with set := progress.set.recordOverridden declared.id member.id }
  | .conflict reason =>
    { progress with
      conflicts := progress.conflicts ++
        [⟨name, declared.id, member.id, .incompatibleOverride reason⟩] }
  | .unrelated => progress

/-- Notes what the checks of an inherited member against the declared ones find. -/
def bind (input : SynthesisInput) (name : String) (declared : List DeclaredMember)
    (progress : Progress) (member : Inherited) : Progress :=
  declared.foldl (input.bindTo name member) progress

/-- The conflicts between the first member of a bucket and the first members of all clusters but its
own. -/
def clashes (name : String) (bucket : Bucket) (others : List (List Nat)) : List Conflict :=
  others.filterMap fun cluster =>
    (cluster.head?.bind (bucket.members[·]?)).map fun second =>
      ⟨name, bucket.first.id, second.id, .inheritedClash⟩

/-- How the member that stands for a bucket comes to be one of the class. -/
def originOf (bucket : Bucket) (specific : Inherited) : MemberOrigin :=
  if bucket.others.isEmpty && specific.unmodified then .inherited else .bridge

/-- Adds the member that stands for a bucket: the only member of the bucket if it may represent
itself, and otherwise a fake override of all of them under a fresh id. -/
def represent (input : SynthesisInput) (name : String) (progress : Progress) (bucket : Bucket)
    (specific : Inherited) : Progress :=
  let origin := originOf bucket specific
  if origin == .inherited && !input.options.materialize then
    { progress with set := progress.set.push name ⟨specific.id, origin⟩ }
  else
    let id := progress.next
    let overridden := bucket.members.map (·.id)
    { progress with
      set := (overridden.foldl (·.recordOverridden id ·) progress.set).push name ⟨id, origin⟩
      pending := progress.pending ++
        [specific.declaration.fakeOverride id input.owner specific.substitution overridden]
      next := id.next }

/-- Adds the member that stands for a bucket, or the conflicts of a bucket whose members do not
stand for the same declaration. -/
def resolveBucket (input : SynthesisInput) (name : String) (progress : Progress)
    (bucket : Bucket) : Progress :=
  let closures := bucket.members.map fun member => input.lookup.closure member.id
  match clusters closures with
  | _ :: other :: others =>
    { progress with conflicts := progress.conflicts ++ clashes name bucket (other :: others) }
  | _ => input.represent name progress bucket (bucket.mostSpecific closures)

def resolveGroup (input : SynthesisInput) (progress : Progress)
    (group : String × List Inherited) : Progress :=
  let (name, members) := group
  let declared := input.declaredNamed name
  let unbound := members.filter fun member => !input.isBound declared member
  (bucketByShape unbound).foldl (input.resolveBucket name)
    (members.foldl (input.bind name declared) progress)

/-- What a synthesis has found once the declared members are in the set. -/
def start (input : SynthesisInput) : Progress where
  set := input.declared.foldl (fun set declaration =>
    set.push declaration.name ⟨declaration.id, .declared⟩) { owner := input.owner }
  next := input.store.next

def run (input : SynthesisInput) (inherited : List Inherited) : Progress :=
  (groupByName inherited).entries.foldl input.resolveGroup input.start

end SynthesisInput

/-- The effective members of the class `owner`, from its declared members and the effective members
of its direct supertypes in their order. Nothing is stored; each fake override uses up one id.
Conflicts are collected and are no failure. -/
def synthesizeWith (options : SynthesisOptions) (lookup : OverriddenLookup) (owner : DeclId)
    (declared : List DeclId) (supertypes : List SupertypeMembers) : StoreM OverrideSynthesis :=
  fun store =>
    match declared.mapM store.resolve with
    | .error e => .error e store
    | .ok declared =>
      match inheritedMembers store supertypes with
      | .error e => .error e store
      | .ok inherited =>
        let progress := SynthesisInput.run { store, options, lookup, owner, declared } inherited
        .ok ⟨progress.set, progress.conflicts, progress.pending⟩
          { store with next := progress.next }

/-- The effective members of a class, where stored declarations say what they override. -/
def synthesizePending (options : SynthesisOptions) (owner : DeclId) (declared : List DeclId)
    (supertypes : List SupertypeMembers) : StoreM OverrideSynthesis := do
  synthesizeWith options (← get).overriddenLookup owner declared supertypes

/-- The effective members of a class. Its fake overrides are stored if there is no conflict, and
stay pending otherwise. -/
def synthesize (options : SynthesisOptions) (owner : DeclId) (declared : List DeclId)
    (supertypes : List SupertypeMembers) : StoreM OverrideSynthesis := do
  let synthesis ← synthesizePending options owner declared supertypes
  if synthesis.hasConflicts then return synthesis
  modifyGet synthesis.register

/-- The effective members of a class, where any conflict is a failure. -/
def synthesizeStrict (options : SynthesisOptions) (owner : DeclId) (declared : List DeclId)
    (supertypes : List SupertypeMembers) : StoreM OverrideSet := do
  let synthesis ← synthesizePending options owner declared supertypes
  synthesis.intoSet

end ClassSymbols
