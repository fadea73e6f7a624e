import ClassSymbols.Proofs.Loading.Counterparts
import ClassSymbols.Proofs.Runs.ClosedTypes
import ClassSymbols.Proofs.Scope.Owners
import ClassSymbols.Proofs.Store.Filling

/-!
# Enclosed stores

A stored declaration refers to its container, to the owners of type parameters, and to the members
that it lists. If all of these have been given out, then a renaming of ids that are given out later
changes no stored declaration. What declarations say about overriding is left out: it may be known
of ids that are given out later.

## Main definitions

* `Declaration.Owned` — whether the containers and types of a declaration refer to declarations of a
  set.
* `Store.Enclosed` — stores in which they refer to ids that have been given out.

## Main statements

* `Store.Enclosed.twin` — a stored declaration is its own twin.
-/

namespace ClassSymbols

variable {P : DeclId → Prop} {f : DeclId → DeclId}

theorem Ty.map_rename_eq_self {types : List Ty}
    (h : ∀ type ∈ types, type.Owned fun id => f id = id) :
    types.map (rename f) = types :=
  (List.map_congr_left fun type ht => (h type ht).rename_eq_self).trans (List.map_id _)

theorem Ty.map_rename_eq_self_of_option {type : Option Ty}
    (h : ∀ t ∈ type, t.Owned fun id => f id = id) :
    type.map (rename f) = type := by
  cases type with
  | none => rfl
  | some type => exact congrArg some (h type rfl).rename_eq_self

theorem ValueParameter.map_rename_eq_self {parameters : List ValueParameter}
    (h : ∀ parameter ∈ parameters, ∀ type ∈ parameter.types, type.Owned fun id => f id = id) :
    parameters.map (rename f) = parameters := by
  refine (List.map_congr_left fun parameter hp => ?_).trans (List.map_id _)
  have owned := h parameter hp
  have own := (owned parameter.type List.mem_cons_self).rename_eq_self
  have element : parameter.varargElement.map (Ty.rename f) = parameter.varargElement :=
    Ty.map_rename_eq_self_of_option fun type ht => owned type (by simp_all [types])
  simp only [rename, own, element, id]

/-- The supertypes of a class are types that its declaration is made of. -/
theorem Declaration.mem_types_of_supertype (declaration : Declaration) {data : ClassData}
    (hc : declaration.class? = some data) {supertype : Ty} (hs : supertype ∈ data.supertypes) :
    supertype ∈ declaration.types := by
  obtain ⟨_, _, _, _, _, kind⟩ := declaration
  cases kind with
  | classifier data' =>
    obtain rfl := Option.some.inj hc
    simp [types, hs]
  | _ => cases hc

/-- Whether the container of a declaration, the owners of its type parameters and all that its types
refer to belong to a set. -/
structure Declaration.Owned (P : DeclId → Prop) (declaration : Declaration) : Prop where
  container : ∀ id ∈ declaration.container, P id
  typeParameters : ∀ parameter ∈ declaration.typeParameters, parameter.Owned P
  types : ∀ type ∈ declaration.types, type.Owned P

def Store.Enclosed (store : Store) : Prop :=
  ∀ id declaration, store.get? id = some declaration →
    declaration.Owned fun owner => owner.number < store.next.number

namespace Declaration.Owned

variable {declaration : Declaration}

theorem mono {Q : DeclId → Prop} (wider : ∀ id, P id → Q id) (h : declaration.Owned P) :
    declaration.Owned Q where
  container id hid := wider id (h.container id hid)
  typeParameters parameter hp := (h.typeParameters parameter hp).mono wider
  types type ht := (h.types type ht).mono wider

theorem silent (h : declaration.Owned P) : declaration.silent.Owned P := by
  obtain ⟨_, _, _, _, _, kind⟩ := declaration
  cases kind <;> exact ⟨h.container, h.typeParameters, h.types⟩

variable (h : declaration.Owned fun id => f id = id) (own : f declaration.id = declaration.id)
include h own

/-- A renaming that fixes all that a member refers to and the members that it overrides leaves it as
it is. -/
theorem rename_eq_self (callable : declaration.isCallable = true)
    (silence : declaration.overridden.map f = declaration.overridden) :
    declaration.rename f = declaration := by
  have container : declaration.container.map f = declaration.container := by
    cases found : declaration.container with
    | none => rfl
    | some id => exact congrArg some (h.container id found)
  have typeParameters := map_rename_eq_self h.typeParameters
  have owned := h.types
  obtain ⟨id, name, outer, annotations, origin, kind⟩ := declaration
  cases kind with
  | function data =>
    have receiver : data.receiver.map (Ty.rename f) = data.receiver :=
      Ty.map_rename_eq_self_of_option fun t ht =>
        owned t (by simp [Declaration.types, Option.mem_def.1 ht])
    have values : data.valueParameters.map (ValueParameter.rename f) = data.valueParameters :=
      ValueParameter.map_rename_eq_self fun parameter hp type ht => owned type <| by
        simp only [Declaration.types, List.mem_append]
        exact .inr (.inl (.inr (List.mem_flatMap_of_mem hp ht)))
    have result := (owned data.returnType (by simp [Declaration.types])).rename_eq_self
    simp_all [rename, DeclKind.rename, Declaration.typeParameters, overridden]
  | property data =>
    have receiver : data.receiver.map (Ty.rename f) = data.receiver :=
      Ty.map_rename_eq_self_of_option fun t ht =>
        owned t (by simp [Declaration.types, Option.mem_def.1 ht])
    have result := (owned data.type (by simp [Declaration.types])).rename_eq_self
    simp_all [rename, DeclKind.rename, Declaration.typeParameters, overridden]
  | _ => cases callable

/-- A renaming that fixes all that a member refers to changes nothing but what it says about
overriding. -/
theorem silent_rename_eq_self (callable : declaration.isCallable = true) :
    declaration.silent.rename f = declaration.silent := by
  refine h.silent.rename_eq_self own (declaration.isCallable_silent.trans callable) ?_
  obtain ⟨_, _, _, _, _, kind⟩ := declaration
  cases kind <;> rfl

/-- A renaming that fixes all that a declaration refers to, and the members that a class lists,
changes nothing else. -/
theorem twin_self (eager : ∀ data, declaration.class? = some data →
      ∃ members, data.members = .eager members ∧ ∀ member ∈ members, f member = member) :
    declaration.Twin f declaration where
  id := own.symm
  name := rfl
  callable := rfl
  eq callable := (h.silent_rename_eq_self own callable).symm
  class? := by
    cases hc : declaration.class? with
    | none => rfl
    | some data =>
      obtain ⟨members, listed, fixed⟩ := eager data hc
      have parameters := map_rename_eq_self h.typeParameters
      have members_eq : members.map f = members := (List.map_congr_left fixed).trans (List.map_id _)
      have owned := h.types
      obtain ⟨id, name, outer, annotations, origin, kind⟩ := declaration
      cases kind with
      | classifier data' =>
        obtain rfl := Option.some.inj hc
        have supertypes : data'.supertypes.map (Ty.rename f) = data'.supertypes :=
          Ty.map_rename_eq_self fun type ht =>
            owned type (Declaration.mem_types_of_supertype _ rfl ht)
        simp_all [ClassData.unread, ClassData.rename, ClassMembers.unread, ClassMembers.rename,
          Declaration.typeParameters]
      | _ => cases hc

end Declaration.Owned

/-! ## Stores of given declarations -/

instance [DecidablePred P] (type : Ty) : Decidable (type.Owned P) :=
  inferInstanceAs (Decidable (∀ ref ∈ type.parameters, P ref.owner))

instance [DecidablePred P] (parameter : TypeParameter) : Decidable (parameter.Owned P) :=
  decidable_of_iff (P parameter.owner ∧ ∀ bound ∈ parameter.upperBounds, bound.Owned P)
    ⟨fun h => ⟨h.1, h.2⟩, fun h => ⟨h.owner, h.upperBounds⟩⟩

instance [DecidablePred P] (declaration : Declaration) : Decidable (declaration.Owned P) :=
  decidable_of_iff ((∀ id ∈ declaration.container, P id) ∧
      (∀ parameter ∈ declaration.typeParameters, parameter.Owned P) ∧
      ∀ type ∈ declaration.types, type.Owned P)
    ⟨fun h => ⟨h.1, h.2.1, h.2.2⟩, fun h => ⟨h.container, h.typeParameters, h.types⟩⟩

theorem Store.enclosed_receive_empty {next : DeclId} {declarations : List Declaration}
    (owned : ∀ declaration ∈ declarations,
      declaration.Owned fun owner => owner.number < next.number) :
    (empty.receive next declarations).Enclosed := by
  intro id declaration stored
  rw [next_receive]
  exact owned declaration (mem_of_get?_receive_empty stored).1

/-! ## Enclosed stores -/

namespace Store.Enclosed

variable {store s t : Store} (enclosed : store.Enclosed) (sound : store.Sound) (eager : store.Eager)
  (fixed : ∀ x, x.number < store.next.number → f x = x)
include enclosed sound eager fixed

/-- A stored declaration is its own twin. -/
theorem twin_self {id : DeclId} {declaration : Declaration}
    (stored : store.get? id = some declaration) :
    declaration.Twin f declaration := by
  obtain rfl := sound.keyed stored
  apply Declaration.Owned.twin_self ((enclosed _ _ stored).mono fixed)
    (fixed _ (sound.allocated stored))
  intro data hc
  obtain ⟨members, listed⟩ := eager declaration.id data ⟨declaration, stored, hc⟩
  have known : store.members? declaration.id = some members :=
    members?_eq_some_iff.2 ⟨data, ⟨declaration, stored, hc⟩, by rw [listed]; rfl⟩
  exact ⟨members, listed, fun member hm => fixed member (sound.listed_allocated known member hm)⟩

/-- What has been stored from the start is its own twin in all stores that were reached. -/
theorem twin (hs : store.Evolves s) (ht : store.Evolves t) {id : DeclId}
    (below : id.number < store.next.number) :
    Option.Rel (Declaration.Twin f) (s.get? id) (t.get? id) := by
  cases old : store.get? id with
  | some declaration =>
    obtain ⟨d, hd, same⟩ := hs.kept old
    obtain ⟨d', hd', same'⟩ := ht.kept old
    rw [hd, hd']
    exact .some ((enclosed.twin_self sound eager fixed old).congr same same')
  | none =>
    have missing {u : Store} (hu : store.Evolves u) : u.get? id = none := by
      by_contra stored
      obtain ⟨d, stored⟩ := Option.ne_none_iff_exists'.1 stored
      rcases hu.fresh stored with ⟨d', earlier⟩ | later
      · simp [old] at earlier
      · omega
    rw [missing hs, missing ht]
    exact .none

end Store.Enclosed

end ClassSymbols
