import ClassSymbols.Proofs.Store.Growth

/-!
# Stores of given declarations

A store that is filled with declarations under ids that have been given out is sound if no member is
in the lists of two of them. For given declarations all of this can be decided.

## Main definitions

* `Declaration.listed` — the members that a class lists.
* `Store.Eager` — stores in which the members of all classes are listed from the start.
* `Store.Registered` — stores in which the members of classes are stored.
* `Declaration.plainFunction`, `Declaration.plainClass` — simple declarations.

## Main statements

* `Store.sound_receive_empty`, `Store.indexed_receive_empty`, `Store.registered_receive_empty` — a
  store that is filled so is sound, and its classes and members are stored.
-/

namespace ClassSymbols

def Declaration.listed (declaration : Declaration) : List DeclId :=
  match declaration.class? with
  | some data => data.members.known?.getD []
  | none => []

def Declaration.isEager (declaration : Declaration) : Bool :=
  match declaration.class? with
  | some ⟨_, _, _, _, _, _, _, _, .deferred _⟩ => false
  | _ => true

namespace Store

def Eager (store : Store) : Prop :=
  ∀ id data, store.IsClass id data → ∃ members, data.members = .eager members

theorem Eager.complete {store : Store} (eager : store.Eager) : store.Complete := by
  intro id data stored
  obtain ⟨members, e⟩ := eager id data stored
  exact ⟨members, by rw [e]; rfl⟩

def Registered (store : Store) : Prop :=
  ∀ id members, store.members? id = some members → ∀ member ∈ members, (store.get? member).isSome

variable {next : DeclId} {declarations : List Declaration}

theorem mem_of_get?_receive_empty {id : DeclId} {declaration : Declaration}
    (h : (empty.receive next declarations).get? id = some declaration) :
    declaration ∈ declarations ∧ declaration.id = id := by
  rcases get?_receive_cases h with none | found
  · cases none
  · exact found

theorem eager_receive_empty (eager : ∀ declaration ∈ declarations, declaration.isEager = true) :
    (empty.receive next declarations).Eager := by
  rintro id data ⟨declaration, stored, hc⟩
  have known := eager declaration (mem_of_get?_receive_empty stored).1
  rw [Declaration.isEager, hc] at known
  obtain ⟨_, _, _, _, _, _, _, _, members | _⟩ := data
  · exact ⟨members, rfl⟩
  · cases known

theorem exists_listed_of_receive_empty {id : DeclId} {members : List DeclId}
    (h : (empty.receive next declarations).members? id = some members) :
    ∃ declaration ∈ declarations, declaration.id = id ∧ declaration.listed = members := by
  obtain ⟨data, ⟨declaration, stored, hc⟩, known⟩ := members?_eq_some_iff.1 h
  obtain ⟨hd, same⟩ := mem_of_get?_receive_empty stored
  exact ⟨declaration, hd, same, by simp [Declaration.listed, hc, known]⟩

section Nodup

variable (nodup : (declarations.map (·.id)).Nodup)
include nodup

theorem isClass_receive_empty {declaration : Declaration} {data : ClassData}
    (h : declaration ∈ declarations) (hc : declaration.class? = some data) :
    (empty.receive next declarations).IsClass declaration.id data :=
  ⟨declaration, get?_insertAll_of_mem nodup h, hc⟩

theorem indexed_receive_empty : (empty.receive next declarations).Indexed := by
  intro classId id found
  rcases findClass?_insertAll { empty with next } declarations classId with old |
    ⟨declaration, hd, data, hc, -, e⟩
  · cases old.symm.trans found
  · obtain rfl := Option.some.inj (e.symm.trans found)
    exact ⟨data, isClass_receive_empty nodup hd hc⟩

theorem registered_receive_empty
    (stored : ∀ declaration ∈ declarations,
      ∀ member ∈ declaration.listed, ∃ other ∈ declarations, other.id = member) :
    (empty.receive next declarations).Registered := by
  intro id members known member hm
  obtain ⟨declaration, hd, -, rfl⟩ := exists_listed_of_receive_empty known
  obtain ⟨other, ho, rfl⟩ := stored declaration hd member hm
  exact Option.isSome_of_mem (get?_insertAll_of_mem nodup ho)

end Nodup

/-- A store that is filled with declarations is sound if their ids and members have been given out,
and no member is in the lists of two of them. -/
theorem sound_receive_empty
    (allocated : ∀ declaration ∈ declarations, declaration.id.number < next.number)
    (listed : ∀ declaration ∈ declarations,
      ∀ member ∈ declaration.listed, member.number < next.number)
    (apart : ∀ declaration ∈ declarations, ∀ other ∈ declarations,
      ∀ member ∈ declaration.listed, member ∈ other.listed → declaration.id = other.id) :
    (empty.receive next declarations).Sound := by
  have wider : { empty with next : Store }.WellFormed := ⟨nofun, nofun⟩
  refine ⟨wider.insertAll allocated, fun h member hm => ?_, fun h h' member hm hm' => ?_⟩
  · obtain ⟨declaration, hd, -, rfl⟩ := exists_listed_of_receive_empty h
    rw [next_receive]
    exact listed declaration hd member hm
  · obtain ⟨declaration, hd, rfl, rfl⟩ := exists_listed_of_receive_empty h
    obtain ⟨other, ho, rfl, rfl⟩ := exists_listed_of_receive_empty h'
    exact apart declaration hd other ho member hm hm'

end Store

/-! ## Simple declarations -/

namespace Declaration

def plainFunction (id owner : DeclId) (returnType : Ty) : Declaration where
  id
  name := "f"
  container := some owner
  kind := .function { returnType }

/-- A class at the top level with direct supertypes and members. -/
def plainClass (id : DeclId) (name : String) (supertypes : List String) (members : List DeclId) :
    Declaration where
  id
  name
  container := none
  kind := .classifier {
    classId := ⟨"", name, false⟩
    supertypes := supertypes.map fun supertype => .ofClass ⟨"", supertype, false⟩
    members := .eager members }

end Declaration

end ClassSymbols
