import ClassSymbols.Overrides.Relation
import ClassSymbols.Proofs.Data.Grouping
import ClassSymbols.Proofs.Store.Filling
import ClassSymbols.Proofs.Ty.Substitution

/-!
# Listed supertypes

A type has the supertypes that its class lists, as the type sees them. So the classes of its
supertypes, and of theirs in turn, are found by walking along links between class ids.

## Main definitions

* `Leads` — whether one element leads to another one in a number of steps of a relation.
* `Store.Lists`, `Store.LinksTo` — the supertypes that the class of a class id lists, and their
  classes.
* `Store.Shallow` — stores in which no walk along links is longer than a bound.
* `Store.Ranked` — stores in which links lead down.

## Main statements

* `Store.mem_supertypesOf_iff` — the supertypes of a type.
* `Store.Ranked.acyclic`, `Store.Ranked.shallow` — walks that lead down do not lead back, and are
  short.
-/

namespace ClassSymbols

/-- Whether one element leads to another one in a number of steps of a relation. -/
inductive Leads {α : Type} (r : α → α → Prop) : Nat → α → α → Prop
  | refl (a : α) : Leads r 0 a a
  | head {n : Nat} {a b c : α} (step : r a b) (rest : Leads r n b c) : Leads r (n + 1) a c

/-- What a type that a class lists is for a type that is built on the class. -/
def Ty.seenFrom (listed : Ty) (owner : DeclId) (type : Ty) : Ty :=
  (listed.substitute (.ofSupertype owner type)).withNullable type.nullable

namespace Store

variable {store : Store} {type supertype : Ty} {k l : ClassId} {id : DeclId}

def Lists (store : Store) (k : ClassId) (id : DeclId) (supertype : Ty) : Prop :=
  store.findClass? k = some id ∧ ∃ data, store.IsClass id data ∧ supertype ∈ data.supertypes

/-- The supertypes of a type are those that its class lists, as the type sees them. -/
theorem mem_supertypesOf_iff : supertype ∈ store.supertypesOf type ↔ ∃ k id listed,
    type.classId? = some k ∧ store.Lists k id listed ∧ listed.seenFrom id type = supertype := by
  unfold supertypesOf Lists IsClass Ty.seenFrom
  cases named : type.classId? with
  | none => simp
  | some k =>
    simp only [Option.bind_some]
    cases found : store.findClass? k with
    | none => simp [found]
    | some id =>
      simp only [Option.some.injEq]
      cases stored : store.get? id with
      | none => simp [found, stored]
      | some declaration => cases hc : declaration.class? <;> simp [found, stored, hc]

theorem nullable_of_mem_supertypesOf (h : supertype ∈ store.supertypesOf type) :
    supertype.nullable = type.nullable := by
  obtain ⟨k, id, listed, -, -, rfl⟩ := mem_supertypesOf_iff.1 h
  rfl

theorem mem_supertypesOf_withNullable {nullable : Bool} :
    supertype ∈ store.supertypesOf (type.withNullable nullable) ↔
    ∃ original ∈ store.supertypesOf type, original.withNullable nullable = supertype := by
  simp only [mem_supertypesOf_iff]
  constructor
  · rintro ⟨k, id, listed, named, lists, rfl⟩
    exact ⟨_, ⟨k, id, listed, named, lists, rfl⟩, rfl⟩
  · rintro ⟨_, ⟨k, id, listed, named, lists, rfl⟩, rfl⟩
    exact ⟨k, id, listed, named, lists, rfl⟩

/-! ## Links between classes -/

/-- Whether the class that is found for a class id lists a supertype that is built on another class
id. -/
def LinksTo (store : Store) (k l : ClassId) : Prop :=
  ∃ id supertype, store.Lists k id supertype ∧ supertype.classId? = some l

/-- Whether no walk along links is longer than a bound; then there are no cycles. -/
def Shallow (store : Store) (bound : Nat) : Prop :=
  ∀ {links k l}, Leads store.LinksTo links k l → links ≤ bound

/-- Whether all classes have higher ranks than those that they link to. -/
def Ranked (store : Store) (rank : ClassId → Nat) : Prop :=
  ∀ entry ∈ store.classes.entries,
    ∀ data ∈ (store.get? entry.2).bind (·.class?), ∀ supertype ∈ data.supertypes,
    ∀ l ∈ supertype.classId?, rank l < rank entry.1

instance (store : Store) (rank : ClassId → Nat) : Decidable (store.Ranked rank) :=
  inferInstanceAs (Decidable (∀ _ ∈ _, _))

namespace Ranked

variable {rank : ClassId → Nat} (h : store.Ranked rank)
include h

theorem lt (step : store.LinksTo k l) : rank l < rank k := by
  obtain ⟨id, supertype, ⟨found, data, ⟨declaration, stored, hc⟩, mem⟩, named⟩ := step
  have entry : (k, id) ∈ store.classes.entries := (OrderedMap.mem_entries_iff _).2 found
  exact h _ entry data (Option.bind_eq_some_iff.2 ⟨declaration, stored, hc⟩) supertype mem l named

/-- A walk along links leads down by its length at least. -/
theorem add_le {links : Nat} (leads : Leads store.LinksTo links k l) : links + rank l ≤ rank k := by
  induction leads with
  | refl => simp
  | head step _ ih =>
    have := h.lt step
    omega

/-- What leads down does not lead back. -/
theorem acyclic {links : Nat} : ¬Leads store.LinksTo (links + 1) k k := by
  intro leads
  have := h.add_le leads
  omega

theorem shallow {bound : Nat} (le : ∀ k, rank k ≤ bound) : store.Shallow bound := by
  intro links k l leads
  have := h.add_le leads
  have := le k
  omega

end Ranked

/-- What holds of the supertypes that the declarations list holds of those that a store filled with
them lists. -/
theorem Lists.of_declared {P : Ty → Prop} {next : DeclId} {declarations : List Declaration}
    (h : (Store.empty.receive next declarations).Lists k id supertype)
    (declared : ∀ declaration ∈ declarations,
      ∀ data ∈ declaration.class?, ∀ supertype ∈ data.supertypes, P supertype) :
    P supertype := by
  obtain ⟨-, data, ⟨declaration, stored, hc⟩, mem⟩ := h
  exact declared declaration (mem_of_get?_receive_empty stored).1 data hc supertype mem

end Store

/-! ## Classes with a type parameter -/

def Ty.applied (name : String) (argument : TypeArgument) : Ty :=
  (Ty.ofClass ⟨"", name, false⟩).withArguments [argument]

namespace Declaration

/-- A class at the top level with one type parameter and direct supertypes. -/
def genericClass (id : DeclId) (name : String) (supertypes : List Ty) : Declaration where
  id
  name
  container := none
  kind := .classifier
    { classId := ⟨"", name, false⟩,
      typeParameters := [⟨0, "T", 0, id, .invariant, false, []⟩], supertypes }

/-- A class with one type parameter, which it passes on to its supertype with a projection. -/
def passing (id : DeclId) (name : String) (variance : Variance) (supertype : String) :
    Declaration :=
  .genericClass id name [.applied supertype (.projected variance (.ofParameter id 0 "T"))]

end Declaration

def crates : List Declaration := [.genericClass ⟨1⟩ "Box" [], .passing ⟨2⟩ "Crate" .invariant "Box"]

end ClassSymbols
