import ClassSymbols.Overrides.Synthesis
import ClassSymbols.Proofs.Data.Grouping
import ClassSymbols.Proofs.Data.Traversal
import ClassSymbols.Proofs.Store.WellFormed

/-!
# What a class inherits

Each member that supertypes list is seen through the first supertype that lists it.

## Main definitions

* `substitutionFor?` — the substitution through which a class sees a member.
* `Store.inheritedAs?` — the member as the class sees it.
* `Store.inheritedFrom` — the members that a class inherits, in their order.

## Main statements

* `mem_inheritedMembers_iff`, `eq_inheritedFrom` — what the supertypes of a class have to offer.
* `nodup_inheritedMembers` — each member is offered once.
-/

namespace ClassSymbols

variable {store : Store} {supertypes : List SupertypeMembers}

/-! ## First occurrences -/

def substitutionFor? (supertypes : List SupertypeMembers) (id : DeclId) : Option Substitution :=
  (supertypes.find? fun supertype => id ∈ supertype.members).map fun supertype =>
    .ofSupertype supertype.owner supertype.supertype

theorem mem_firstOccurrences_iff {seen : List DeclId} {listed : List (DeclId × Substitution)}
    {id : DeclId} {substitution : Substitution} :
    (id, substitution) ∈ firstOccurrences seen listed ↔
      id ∉ seen ∧ OrderedMap.lookup id listed = some substitution := by
  induction listed generalizing seen with
  | nil => simp [firstOccurrences, OrderedMap.lookup]
  | cons entry rest ih =>
    obtain ⟨other, replaced⟩ := entry
    by_cases hs : other ∈ seen
    · have : other ≠ id ∨ id ∈ seen := by
        by_cases h : other = id
        · exact .inr (h ▸ hs)
        · exact .inl h
      rw [firstOccurrences, if_pos hs, ih, OrderedMap.lookup]
      rcases this with h | h <;> simp [h]
    · rw [firstOccurrences, if_neg hs, List.mem_cons, ih, OrderedMap.lookup]
      by_cases h : other = id
      · subst h
        simp [hs, eq_comm]
      · simp [h, Ne.symm h]

theorem nodup_firstOccurrences (seen : List DeclId) (listed : List (DeclId × Substitution)) :
    ((firstOccurrences seen listed).map Prod.fst).Nodup := by
  induction listed generalizing seen with
  | nil => simp [firstOccurrences]
  | cons entry rest ih =>
    obtain ⟨id, substitution⟩ := entry
    by_cases hs : id ∈ seen
    · simpa [firstOccurrences, hs] using ih seen
    · rw [firstOccurrences, if_neg hs, List.map_cons, List.nodup_cons]
      refine ⟨fun h => ?_, ih _⟩
      obtain ⟨⟨_, later⟩, hm, rfl⟩ := List.mem_map.1 h
      exact (mem_firstOccurrences_iff.1 hm).1 List.mem_cons_self

theorem map_fst_firstOccurrences (seen : List DeclId) (listed : List (DeclId × Substitution)) :
    (firstOccurrences seen listed).map Prod.fst =
      ((listed.map Prod.fst).filter (· ∉ seen)).eraseDups := by
  induction listed generalizing seen with
  | nil => rfl
  | cons entry rest ih =>
    obtain ⟨id, substitution⟩ := entry
    by_cases known : id ∈ seen
    · simp [firstOccurrences, known, ih]
    · have apart : (rest.map Prod.fst).filter (· ∉ id :: seen) =
          ((rest.map Prod.fst).filter (· ∉ seen)).filter fun other => !other == id := by
        rw [List.filter_filter]
        refine List.filter_congr fun other _ => ?_
        by_cases same : other = id <;> simp [same]
      rw [firstOccurrences, if_neg known, List.map_cons, List.map_cons, List.filter_cons,
        if_pos (by simpa using known), List.eraseDups_cons, ih, apart]

theorem lookup_append {κ α : Type} [DecidableEq κ] (k : κ) (xs ys : List (κ × α)) :
    OrderedMap.lookup k (xs ++ ys) = (OrderedMap.lookup k xs).or (OrderedMap.lookup k ys) := by
  induction xs with
  | nil => rfl
  | cons entry rest ih =>
    obtain ⟨j, a⟩ := entry
    by_cases h : j = k <;> simp [OrderedMap.lookup, h, ih]

theorem lookup_map_pair (id : DeclId) (ids : List DeclId) (substitution : Substitution) :
    OrderedMap.lookup id (ids.map (·, substitution)) = if id ∈ ids then some substitution
      else none := by
  induction ids with
  | nil => rfl
  | cons other rest ih =>
    by_cases h : other = id
    · simp [OrderedMap.lookup, h]
    · simp [OrderedMap.lookup, h, Ne.symm h, ih]

/-- The first pair for a member comes from the first supertype that lists it. -/
theorem lookup_listedMembers (supertypes : List SupertypeMembers) (id : DeclId) :
    OrderedMap.lookup id (listedMembers supertypes) = substitutionFor? supertypes id := by
  induction supertypes with
  | nil => rfl
  | cons supertype rest ih =>
    unfold listedMembers at ih ⊢
    rw [List.flatMap_cons, lookup_append, ih, lookup_map_pair, substitutionFor?, substitutionFor?,
      List.find?_cons]
    by_cases h : id ∈ supertype.members <;> simp [h]

theorem substitutionFor?_isSome_iff {id : DeclId} :
    (substitutionFor? supertypes id).isSome ↔ ∃ supertype ∈ supertypes, id ∈ supertype.members := by
  simp [substitutionFor?]

theorem exists_of_substitutionFor? {id : DeclId} {substitution : Substitution}
    (h : substitutionFor? supertypes id = some substitution) :
    ∃ supertype ∈ supertypes, substitution = .ofSupertype supertype.owner supertype.supertype := by
  obtain ⟨supertype, found, e⟩ := Option.map_eq_some_iff.1 h
  exact ⟨supertype, List.mem_of_find?_eq_some found, e.symm⟩

/-! ## Inherited members -/

/-- The member with an id as a class with the given supertypes sees it, if it inherits the
member. -/
def Store.inheritedAs? (store : Store) (supertypes : List SupertypeMembers) (id : DeclId) :
    Option Inherited := do
  let declaration ← store.get? id
  let substitution ← substitutionFor? supertypes id
  if declaration.visibility.isInheritable then
    (Signature.of? declaration substitution).map fun signature =>
      { declaration, substitution, signature }
  else none

/-- The members that a class inherits, in the order in which its supertypes list them first. -/
def Store.inheritedFrom (store : Store) (supertypes : List SupertypeMembers) : List Inherited :=
  (supertypes.flatMap (·.members)).eraseDups.filterMap (store.inheritedAs? supertypes)

theorem Store.inheritedAs?_eq_some_iff {id : DeclId} {member : Inherited} :
    store.inheritedAs? supertypes id = some member ↔
      store.get? id = some member.declaration ∧
      substitutionFor? supertypes id = some member.substitution ∧
      member.declaration.visibility.isInheritable = true ∧
      Signature.of? member.declaration member.substitution = some member.signature := by
  obtain ⟨declaration, substitution, signature⟩ := member
  simp only [inheritedAs?, Option.bind_eq_bind, Option.bind_eq_some_iff]
  constructor
  · rintro ⟨d, hd, s, hs, h⟩
    split at h
    · next inheritable =>
      obtain ⟨_, hsig, e⟩ := Option.map_eq_some_iff.1 h
      obtain ⟨rfl, rfl, rfl⟩ := Inherited.mk.inj e
      exact ⟨hd, hs, inheritable, hsig⟩
    · exact absurd h (by simp)
  · rintro ⟨hd, hs, inheritable, hsig⟩
    exact ⟨declaration, hd, substitution, hs,
      by simp [show declaration.visibility.isInheritable = true
      from inheritable, show Signature.of? declaration substitution = some signature from hsig]⟩

theorem Signature.of?_eq_none_iff {declaration : Declaration} {substitution : Substitution} :
    Signature.of? declaration substitution = none ↔ declaration.isCallable = false := by
  unfold Signature.of? Declaration.isCallable
  split <;> simp [*]

theorem Declaration.isCallable_of_signature {declaration : Declaration}
    {substitution : Substitution} {signature : Signature}
    (h : Signature.of? declaration substitution = some signature) :
    declaration.isCallable = true := by
  by_contra other
  simp [Signature.of?_eq_none_iff.2 (Bool.eq_false_iff.2 other)] at h

theorem Store.isCallable_of_inheritedAs? {id : DeclId} {member : Inherited}
    (h : store.inheritedAs? supertypes id = some member) : member.declaration.isCallable = true :=
  Declaration.isCallable_of_signature (inheritedAs?_eq_some_iff.1 h).2.2.2

/-- The members that supertypes list and a class does not inherit are neither functions nor
properties, or cannot be inherited. -/
theorem Store.inheritedAs?_eq_none_iff {store : Store} {supertypes : List SupertypeMembers}
    {id : DeclId} {declaration : Declaration} (stored : store.get? id = some declaration)
    (listed : ∃ supertype ∈ supertypes, id ∈ supertype.members) :
    store.inheritedAs? supertypes id = none ↔
      declaration.isCallable = false ∨ declaration.visibility.isInheritable = false := by
  obtain ⟨substitution, seen⟩ := Option.isSome_iff_exists.1 (substitutionFor?_isSome_iff.2 listed)
  cases inheritable : declaration.visibility.isInheritable
  · simp [inheritedAs?, stored, seen, inheritable]
  · simp [inheritedAs?, stored, seen, inheritable, Signature.of?_eq_none_iff]

theorem inheritedMember?_eq_ok_iff {id : DeclId} {substitution : Substitution}
    {member : Option Inherited} :
    inheritedMember? store (id, substitution) = .ok member ↔
      ∃ declaration, store.get? id = some declaration ∧
        member = if declaration.visibility.isInheritable then
          (Signature.of? declaration substitution).map fun signature =>
            { declaration, substitution, signature }
        else none := by
  simp only [inheritedMember?, Except.bind_eq_ok_iff, Store.resolve_eq_ok_iff]
  refine exists_congr fun declaration => and_congr_right fun _ => ?_
  cases declaration.visibility.isInheritable
  · simp [pure, Except.pure, eq_comm]
  · cases Signature.of? declaration substitution <;> simp [pure, Except.pure, eq_comm]

theorem inheritedMembers_eq_ok_iff {inherited : List Inherited} :
    inheritedMembers store supertypes = .ok inherited ↔
      ∃ members, List.Forall₂ (fun listed member => inheritedMember? store listed = .ok member)
        (firstOccurrences [] (listedMembers supertypes)) members ∧
        members.filterMap (fun member => member) = inherited := by
  simp only [inheritedMembers, Except.bind_eq_ok_iff, mapM_eq_ok_iff]
  exact exists_congr fun members => and_congr_right fun _ =>
    ⟨fun h => Except.ok.inj h, fun h => congrArg Except.ok h⟩

/-- The members that supertypes list can be read if all of them are stored. -/
theorem exists_inheritedMembers
    (stored : ∀ supertype ∈ supertypes, ∀ id ∈ supertype.members, (store.get? id).isSome) :
    ∃ inherited, inheritedMembers store supertypes = .ok inherited := by
  have steps : ∀ listed ∈ firstOccurrences [] (listedMembers supertypes),
      ∃ member, inheritedMember? store listed = .ok member := by
    rintro ⟨id, substitution⟩ hl
    have seen : (substitutionFor? supertypes id).isSome := by
      rw [← lookup_listedMembers, (mem_firstOccurrences_iff.1 hl).2]
      rfl
    obtain ⟨supertype, hs, hid⟩ := substitutionFor?_isSome_iff.1 seen
    obtain ⟨declaration, hd⟩ := Option.isSome_iff_exists.1 (stored supertype hs id hid)
    exact ⟨_, inheritedMember?_eq_ok_iff.2 ⟨declaration, hd, rfl⟩⟩
  obtain ⟨members, found⟩ := exists_mapM_eq_ok steps
  exact ⟨_, inheritedMembers_eq_ok_iff.2 ⟨members, mapM_eq_ok_iff.1 found, rfl⟩⟩

section

variable {inherited : List Inherited}
  (keyed : ∀ {id declaration}, store.get? id = some declaration → declaration.id = id)
  (ok : inheritedMembers store supertypes = .ok inherited)
include keyed ok

/-- What supertypes have to offer are the members that they list, as a class sees them. -/
theorem mem_inheritedMembers_iff {member : Inherited} :
    member ∈ inherited ↔ store.inheritedAs? supertypes member.id = some member := by
  obtain ⟨members, steps, rfl⟩ := inheritedMembers_eq_ok_iff.1 ok
  rw [Store.inheritedAs?_eq_some_iff]
  simp only [List.mem_filterMap, exists_eq_right]
  constructor
  · intro h
    obtain ⟨⟨id, substitution⟩, hl, hs⟩ := exists_mem_of_forall₂ steps h
    obtain ⟨declaration, hd, e⟩ := inheritedMember?_eq_ok_iff.1 hs
    split at e
    · next inheritable =>
      obtain ⟨signature, hsig, rfl⟩ := Option.map_eq_some_iff.1 e.symm
      obtain rfl : declaration.id = id := keyed hd
      refine ⟨hd, ?_, inheritable, hsig⟩
      rw [← lookup_listedMembers]
      exact (mem_firstOccurrences_iff.1 hl).2
    · exact absurd e (by simp)
  · rintro ⟨hd, hs, inheritable, hsig⟩
    have hl : (member.id, member.substitution) ∈
        firstOccurrences [] (listedMembers supertypes) :=
      mem_firstOccurrences_iff.2 ⟨by simp, (lookup_listedMembers _ _).trans hs⟩
    obtain ⟨found, hf, hstep⟩ := exists_mem_of_forall₂_left steps hl
    obtain ⟨declaration, hd', e⟩ := inheritedMember?_eq_ok_iff.1 hstep
    obtain rfl := Option.some.inj (hd.symm.trans hd')
    rw [if_pos inheritable, hsig] at e
    obtain rfl : found = some member := e
    exact hf

/-- A class inherits each member once. -/
theorem nodup_inheritedMembers : (inherited.map (·.id)).Nodup := by
  obtain ⟨members, steps, rfl⟩ := inheritedMembers_eq_ok_iff.1 ok
  refine List.Nodup.sublist ?_ (nodup_firstOccurrences [] (listedMembers supertypes))
  generalize firstOccurrences [] (listedMembers supertypes) = listed at steps
  clear ok
  induction steps with
  | nil => simp
  | @cons listed member _ _ step _ ih =>
    obtain ⟨id, substitution⟩ := listed
    obtain ⟨declaration, hd, e⟩ := inheritedMember?_eq_ok_iff.1 step
    cases member with
    | none => simpa using ih.cons id
    | some member =>
      have hid : member.id = id := by
        split at e
        · obtain ⟨signature, _, rfl⟩ := Option.map_eq_some_iff.1 e.symm
          exact keyed hd
        · exact absurd e (by simp)
      simpa [hid] using ih.cons_cons id

omit keyed in
/-- A class inherits members in the order in which its supertypes list them first. -/
theorem eq_inheritedFrom : inherited = store.inheritedFrom supertypes := by
  obtain ⟨members, steps, rfl⟩ := inheritedMembers_eq_ok_iff.1 ok
  have ids : (supertypes.flatMap (·.members)).eraseDups =
      (firstOccurrences [] (listedMembers supertypes)).map Prod.fst := by
    rw [map_fst_firstOccurrences]
    simp [listedMembers, List.map_flatMap, Function.comp_def]
  have seen : ∀ listed ∈ firstOccurrences [] (listedMembers supertypes),
      substitutionFor? supertypes listed.1 = some listed.2 := fun listed hl =>
    (lookup_listedMembers _ _).symm.trans (mem_firstOccurrences_iff.1 hl).2
  rw [Store.inheritedFrom, ids]
  generalize firstOccurrences [] (listedMembers supertypes) = list at steps seen
  clear ids ok
  induction steps with
  | nil => rfl
  | @cons listed member rest members step _ ih =>
    obtain ⟨declaration, stored, rfl⟩ := inheritedMember?_eq_ok_iff.1 step
    have own : store.inheritedAs? supertypes listed.1 =
      (if declaration.visibility.isInheritable then
        (Signature.of? declaration listed.2).map fun signature =>
          { declaration, substitution := listed.2, signature }
        else none) := by
      simp [Store.inheritedAs?, stored, seen listed List.mem_cons_self]
    rw [List.filterMap_cons, List.map_cons, List.filterMap_cons, own,
      ih fun other ho => seen other (List.mem_cons_of_mem _ ho)]

omit keyed in
/-- Every member that a supertype lists is stored. -/
theorem exists_get?_of_listed {id : DeclId}
    (listed : ∃ supertype ∈ supertypes, id ∈ supertype.members) :
    ∃ declaration, store.get? id = some declaration := by
  obtain ⟨members, steps, -⟩ := inheritedMembers_eq_ok_iff.1 ok
  obtain ⟨substitution, hs⟩ := Option.isSome_iff_exists.1 (substitutionFor?_isSome_iff.2 listed)
  have hl : (id, substitution) ∈ firstOccurrences [] (listedMembers supertypes) :=
    mem_firstOccurrences_iff.2 ⟨by simp, (lookup_listedMembers _ _).trans hs⟩
  obtain ⟨_, -, hstep⟩ := exists_mem_of_forall₂_left steps hl
  obtain ⟨declaration, hd, -⟩ := inheritedMember?_eq_ok_iff.1 hstep
  exact ⟨declaration, hd⟩

end

end ClassSymbols
