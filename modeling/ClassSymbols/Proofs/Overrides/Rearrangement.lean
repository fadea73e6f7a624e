import ClassSymbols.Proofs.Overrides.Clashes
import Mathlib.Combinatorics.Enumerative.DoubleCounting

/-!
# Rearranged members

The order of the supertypes of a class decides in which order it sees what it inherits, and through
which of the supertypes it sees a member that several of them list. If such a member looks the same
through all of them, then two orders give the same members with the same looks. They fall into the
same buckets, with as many components.

## Main definitions

* `Inherited.seen` — a member and how it looks in the class.
* `Rearranged` — whether two lists hold the same members with the same looks.

## Main statements

* `Bucket.length_heads_eq_of_perm` — the number of components of a bucket does not depend on its
  order.
* `Rearranged.exists_settles` — each bucket of one run is a bucket of the other.
* `rearranged_inheritedMembers` — what a class inherits from rearranged supertypes.
-/

namespace ClassSymbols

/-! ## Components -/

namespace Bucket

variable {lookup : OverriddenLookup} {bucket bucket' : Bucket}

theorem mem_ids_eq_of_perm (perm : bucket.ids.Perm bucket'.ids) :
    (· ∈ bucket.ids) = (· ∈ bucket'.ids) :=
  funext fun _ => propext perm.mem_iff

theorem joined_iff_of_perm (perm : bucket.ids.Perm bucket'.ids) :
    bucket.Joined lookup ↔ bucket'.Joined lookup := by
  rw [joined_iff_connected, joined_iff_connected, mem_ids_eq_of_perm perm]
  grind [List.Perm.mem_iff]

/-- The first member of a bucket and its further heads are the first members of their components. -/
theorem head?_component_of_mem {start : Inherited}
    (h : start ∈ bucket.first :: bucket.heads lookup) :
    start ∈ bucket.members ∧ (bucket.component lookup start).head? = some start := by
  rcases List.mem_cons.1 h with rfl | head
  · exact ⟨List.mem_cons_self, head?_component_first⟩
  · obtain ⟨later, starts⟩ := mem_heads_iff.1 head
    exact ⟨List.mem_cons_of_mem _ later, starts⟩

/-- No two components of a bucket are connected. -/
theorem eq_of_chained {a b : Inherited} (ha : a ∈ bucket.first :: bucket.heads lookup)
    (hb : b ∈ bucket.first :: bucket.heads lookup)
    (chained : lookup.Chained (· ∈ bucket.ids) a.id b.id) : a = b := by
  obtain ⟨listed, starts⟩ := head?_component_of_mem ha
  obtain ⟨-, starts'⟩ := head?_component_of_mem hb
  rw [component_eq listed chained, starts'] at starts
  exact (Option.some.inj starts).symm

/-- Every member of a bucket is in a component. -/
theorem exists_start (lookup : OverriddenLookup) {member : Inherited}
    (hm : member ∈ bucket.members) :
    ∃ start ∈ bucket.first :: bucket.heads lookup,
      lookup.Chained (· ∈ bucket.ids) start.id member.id := by
  by_cases chained : lookup.Chained (· ∈ bucket.ids) bucket.first.id member.id
  · exact ⟨_, List.mem_cons_self, chained⟩
  · obtain ⟨head, ⟨hh, chained⟩, -⟩ := existsUnique_head hm chained
    exact ⟨head, List.mem_cons_of_mem _ hh, chained⟩

theorem nodup_heads (lookup : OverriddenLookup) (nodup : bucket.ids.Nodup) :
    (bucket.first :: bucket.heads lookup).Nodup := by
  classical
  have sublist : (bucket.first :: bucket.heads lookup).Sublist bucket.members :=
    List.filter_sublist.cons_cons _
  exact (List.Nodup.of_map _ nodup).sublist sublist

theorem length_heads_le_of_perm (perm : bucket.ids.Perm bucket'.ids) (nodup : bucket.ids.Nodup) :
    (bucket.heads lookup).length ≤ (bucket'.heads lookup).length := by
  classical
  have same := mem_ids_eq_of_perm perm
  have starts := List.toFinset_card_of_nodup (nodup_heads lookup nodup)
  have starts' := List.toFinset_card_of_nodup (nodup_heads lookup (perm.nodup_iff.1 nodup))
  -- Each component of the one bucket starts the other way round in the component that it is
  -- connected with.
  have le := Finset.card_le_card_of_forall_subsingleton
    (s := (bucket.first :: bucket.heads lookup).toFinset)
    (t := (bucket'.first :: bucket'.heads lookup).toFinset)
    (fun start start' => lookup.Chained (· ∈ bucket.ids) start'.id start.id) ?_ ?_
  · rw [starts, starts'] at le
    simpa using le
  · intro start hs
    have listed := (head?_component_of_mem (List.mem_toFinset.1 hs)).1
    obtain ⟨member, hm, e⟩ := List.mem_map.1 (perm.mem_iff.1 (mem_ids listed))
    obtain ⟨start', hs', chained⟩ := exists_start lookup hm
    refine ⟨start', List.mem_toFinset.2 hs', ?_⟩
    rw [same, ← e]
    exact chained
  · rintro start' hs' a ⟨ha, chained⟩ b ⟨hb, chained'⟩
    have listed : start'.id ∈ bucket.ids :=
      perm.mem_iff.2 (mem_ids (head?_component_of_mem (List.mem_toFinset.1 hs')).1)
    exact eq_of_chained (List.mem_toFinset.1 ha) (List.mem_toFinset.1 hb)
      ((chained.symm listed).trans chained')

/-- The number of components of a bucket does not depend on the order of its members. -/
theorem length_heads_eq_of_perm (perm : bucket.ids.Perm bucket'.ids) (nodup : bucket.ids.Nodup) :
    (bucket.heads lookup).length = (bucket'.heads lookup).length :=
  Nat.le_antisymm (length_heads_le_of_perm perm nodup)
    (length_heads_le_of_perm perm.symm (perm.nodup_iff.1 nodup))

end Bucket

/-! ## Rearranged members -/

/-- A member and how it looks in the class, without the substitution that makes it look so. -/
def Inherited.seen (member : Inherited) : Declaration × Signature :=
  (member.declaration, member.signature)

/-- Whether two lists hold the same members with the same looks, in any order. -/
def Rearranged (members members' : List Inherited) : Prop :=
  (members.map Inherited.seen).Perm (members'.map Inherited.seen)

namespace Rearranged

variable {members members' : List Inherited} (h : Rearranged members members')
include h

theorem symm : Rearranged members' members := List.Perm.symm h

theorem exists_mem {member : Inherited} (hm : member ∈ members) :
    ∃ member' ∈ members', member'.declaration = member.declaration ∧
      member'.signature = member.signature := by
  obtain ⟨member', hm', seen⟩ := List.mem_map.1 (List.Perm.subset h (List.mem_map_of_mem hm))
  exact ⟨member', hm', Prod.mk.inj seen⟩

theorem filter (p : Declaration × Signature → Bool) :
    Rearranged (members.filter fun member => p member.seen)
      (members'.filter fun member => p member.seen) := by
  have kept := List.Perm.filter p h
  rw [List.filter_map, List.filter_map] at kept
  exact kept

end Rearranged

namespace Rearranged

variable {input : SynthesisInput} {inherited inherited' : List Inherited} {next : DeclId}
  {name : String} {bucket bucket' : Bucket}

theorem ids_perm (h : Rearranged bucket.members bucket'.members) : bucket.ids.Perm bucket'.ids := by
  have ids := List.Perm.map (fun seen : Declaration × Signature => seen.1.id) h
  rw [List.map_map, List.map_map] at ids
  exact ids

/-- What stands for a bucket comes to be a member in one way, whatever the order of the bucket. -/
theorem originOf_eq (h : Rearranged bucket.members bucket'.members) :
    SynthesisInput.originOf bucket (input.specificOf bucket) =
      SynthesisInput.originOf bucket' (input.specificOf bucket') := by
  have length : bucket.others.length = bucket'.others.length := by
    simpa [Bucket.members] using List.Perm.length_eq h
  by_cases single : bucket.others = []
  · have single' : bucket'.others = [] :=
      List.eq_nil_of_length_eq_zero (length ▸ congrArg List.length single)
    obtain ⟨declaration, signature⟩ : bucket'.first.declaration = bucket.first.declaration ∧
        bucket'.first.signature = bucket.first.signature := by
      obtain ⟨first, hf, seen⟩ := h.exists_mem List.mem_cons_self
      rw [Bucket.members, single', List.mem_singleton] at hf
      exact hf ▸ seen
    have unmodified : bucket'.first.unmodified = bucket.first.unmodified := by
      rw [Inherited.unmodified, Inherited.unmodified, declaration, signature]
    rw [SynthesisInput.specificOf_of_others_eq_nil single,
      SynthesisInput.specificOf_of_others_eq_nil single', SynthesisInput.originOf,
      SynthesisInput.originOf, single, single', unmodified]
  · have several' : bucket'.others ≠ [] := by
      rintro none
      rw [none, List.length_nil] at length
      exact single (List.eq_nil_of_length_eq_zero length)
    simp [SynthesisInput.originOf, single, several']

/-- Each bucket of a run is a bucket of the run over the rearranged members. -/
theorem exists_settles (h : Rearranged inherited inherited')
    (settles : input.Settles inherited next name bucket) :
    ∃ next' bucket', input.Settles inherited' next' name bucket' ∧
      Rearranged bucket.members bucket'.members := by
  obtain ⟨hm, rfl, free, -⟩ := settles.mem_iff.1 settles.first_mem
  obtain ⟨first, hf, declaration, signature⟩ := h.exists_mem hm
  have free' : ¬input.Binds first := by
    rw [SynthesisInput.Binds, declaration, signature]
    exact free
  obtain ⟨next', bucket', settles', hb⟩ := SynthesisInput.exists_settles hf free'
  have shape : bucket.first.signature.SameShape bucket'.first.signature := by
    have same := (settles'.mem_iff.1 hb).2.2.2
    rw [Bucket.HasShape, signature] at same
    exact same.symm
  rw [declaration] at settles'
  refine ⟨next', bucket', settles', ?_⟩
  have like (member : Inherited) : bucket'.HasShape member ↔ bucket.HasShape member :=
    ⟨shape.trans, shape.symm.trans⟩
  rw [settles.members_eq, settles'.members_eq]
  simp only [like]
  -- What selects the members of a bucket only depends on what is seen of them.
  exact h.filter fun seen => decide (bucket.first.signature.SameShape seen.2 ∧
    seen.1.name = bucket.first.declaration.name ∧
    (input.declaredNamed bucket.first.declaration.name).any (fun declared =>
      declared.signature.check seen.2 input.options.relation input.store != .unrelated) = false)

end Rearranged

/-! ## Rearranged supertypes -/

/-- Whether a member that several supertypes list looks the same through all of them. -/
def Store.Consistent (store : Store) (supertypes : List SupertypeMembers) : Prop :=
  ∀ a ∈ supertypes, ∀ b ∈ supertypes, ∀ id ∈ a.members, id ∈ b.members →
    ∀ declaration, store.get? id = some declaration →
      Signature.of? declaration (.ofSupertype a.owner a.supertype) =
        Signature.of? declaration (.ofSupertype b.owner b.supertype)

section Supertypes

variable {store : Store} {supertypes supertypes' : List SupertypeMembers}

theorem exists_listing_of_substitutionFor? {id : DeclId} {substitution : Substitution}
    (h : substitutionFor? supertypes id = some substitution) :
    ∃ supertype ∈ supertypes, id ∈ supertype.members ∧
      substitution = .ofSupertype supertype.owner supertype.supertype := by
  obtain ⟨supertype, found, e⟩ := Option.map_eq_some_iff.1 h
  exact ⟨supertype, List.mem_of_find?_eq_some found, by simpa using List.find?_some found, e.symm⟩

variable (consistent : store.Consistent supertypes) (perm : supertypes.Perm supertypes')
include consistent perm

theorem Store.Consistent.of_perm : store.Consistent supertypes' := fun a ha b hb =>
  consistent a (perm.mem_iff.2 ha) b (perm.mem_iff.2 hb)

/-- A class sees a member alike through its supertypes in any order. -/
theorem exists_inheritedAs?_of_perm {id : DeclId} {member : Inherited}
    (h : store.inheritedAs? supertypes id = some member) :
    ∃ member', store.inheritedAs? supertypes' id = some member' ∧ member'.seen = member.seen := by
  obtain ⟨stored, through, inheritable, signed⟩ := Store.inheritedAs?_eq_some_iff.1 h
  obtain ⟨a, ha, listed, e⟩ := exists_listing_of_substitutionFor? through
  obtain ⟨substitution, through'⟩ := Option.isSome_iff_exists.1
    (substitutionFor?_isSome_iff.2 ⟨a, perm.mem_iff.1 ha, listed⟩)
  obtain ⟨b, hb, listed', e'⟩ := exists_listing_of_substitutionFor? through'
  refine ⟨⟨member.declaration, substitution, member.signature⟩, ?_, rfl⟩
  refine Store.inheritedAs?_eq_some_iff.2 ⟨stored, through', inheritable, ?_⟩
  rw [e', ← consistent a ha b (perm.mem_iff.2 hb) id listed listed' _ stored, ← e]
  exact signed

theorem seen_inheritedAs?_eq_of_perm (id : DeclId) :
    (store.inheritedAs? supertypes id).map Inherited.seen =
      (store.inheritedAs? supertypes' id).map Inherited.seen := by
  cases found : store.inheritedAs? supertypes id with
  | some member =>
    obtain ⟨member', found', seen⟩ := exists_inheritedAs?_of_perm consistent perm found
    rw [found', Option.map_some, Option.map_some, seen]
  | none =>
    cases found' : store.inheritedAs? supertypes' id with
    | none => rfl
    | some member =>
      obtain ⟨_, contra, -⟩ :=
        exists_inheritedAs?_of_perm (consistent.of_perm perm) perm.symm found'
      cases found.symm.trans contra

/-- What a class inherits from rearranged supertypes is what it inherited from them before,
rearranged. -/
theorem rearranged_inheritedMembers {inherited inherited' : List Inherited}
    (keyed : ∀ {id declaration}, store.get? id = some declaration → declaration.id = id)
    (ok : inheritedMembers store supertypes = .ok inherited)
    (ok' : inheritedMembers store supertypes' = .ok inherited') :
    Rearranged inherited inherited' := by
  have nodup {members : List Inherited} (h : (members.map (·.id)).Nodup) :
      (members.map Inherited.seen).Nodup := by
    refine List.Nodup.of_map (fun seen => seen.1.id) ?_
    rw [List.map_map]
    exact h
  have mem_iff {list : List SupertypeMembers} {members : List Inherited}
    (read : inheritedMembers store list = .ok members)
      (seen : Declaration × Signature) : seen ∈ members.map Inherited.seen ↔
        (store.inheritedAs? list seen.1.id).map Inherited.seen = some seen := by
    simp only [List.mem_map, Option.map_eq_some_iff, mem_inheritedMembers_iff keyed read]
    constructor
    · rintro ⟨member, found, rfl⟩
      exact ⟨member, found, rfl⟩
    · rintro ⟨member, found, rfl⟩
      exact ⟨member, found, rfl⟩
  refine (List.perm_ext_iff_of_nodup (nodup (nodup_inheritedMembers keyed ok))
    (nodup (nodup_inheritedMembers keyed ok'))).2 fun seen => ?_
  rw [mem_iff ok, mem_iff ok', seen_inheritedAs?_eq_of_perm consistent perm]

omit consistent in
/-- What supertypes list can be read in any order, or in none. -/
theorem exists_inheritedMembers_of_perm {inherited : List Inherited}
    (ok : inheritedMembers store supertypes = .ok inherited) :
    ∃ inherited', inheritedMembers store supertypes' = .ok inherited' := by
  refine exists_inheritedMembers fun supertype hs id hid => ?_
  obtain ⟨declaration, stored⟩ := exists_get?_of_listed ok ⟨supertype, perm.mem_iff.2 hs, hid⟩
  exact Option.isSome_of_mem stored

end Supertypes

end ClassSymbols
