import ClassSymbols.Proofs.Loading.Counterparts
import ClassSymbols.Proofs.Overrides.RenamedRuns

/-!
# Renaming declarations in what a class inherits

If the members that supertypes list are renamed declarations in another store, what a class inherits
there is what it inherits here, renamed.

## Main definitions

* `SupertypeMembers.Renames` — whether what a supertype lists is renamed.

## Main statements

* `inheritedMembers_renames` — what a class inherits from renamed supertypes.
* `declared_renames` — the declared members of renamed classes.
-/

namespace ClassSymbols

variable {f : DeclId → DeclId} {s t : Store}

/-- Whether what a supertype lists is what another one lists, renamed. -/
structure SupertypeMembers.Renames (f : DeclId → DeclId) (listed renamed : SupertypeMembers) :
    Prop where
  supertype : renamed.supertype = listed.supertype.rename f
  owner : renamed.owner = f listed.owner
  members : renamed.members = listed.members.map f

/-- Whether a listed member is another one, renamed, and stored as a renamed declaration. -/
structure ListedTwin (f : DeclId → DeclId) (s t : Store) (listed renamed : DeclId × Substitution) :
    Prop where
  id : renamed.1 = f listed.1
  substitution : listed.2.Renames f renamed.2
  twin : Option.Rel (Declaration.Twin f) (s.get? listed.1) (t.get? renamed.1)

section Injective

variable (injective : Function.Injective f)
include injective

theorem listedMembers_renames {supertypes supertypes' : List SupertypeMembers}
    (related : List.Forall₂ (SupertypeMembers.Renames f) supertypes supertypes')
    (twins : ∀ m ∈ supertypes, ∀ id ∈ m.members, Option.Rel (Declaration.Twin f) (s.get? id)
      (t.get? (f id))) :
    List.Forall₂ (ListedTwin f s t) (listedMembers supertypes) (listedMembers supertypes') := by
  have known := (List.forall₂_and_left supertypes supertypes').2 ⟨fun _ hm => hm, related⟩
  refine List.rel_flatMap known fun m m' ⟨hm, renames⟩ => ?_
  rw [renames.members, renames.owner, renames.supertype, List.map_map, List.forall₂_map_left_iff,
    List.forall₂_map_right_iff]
  exact List.forall₂_same.2 fun id hid =>
    ⟨rfl, .ofSupertype injective m.owner m.supertype, twins m hm id hid⟩

theorem firstOccurrences_renames (seen : List DeclId)
    {listed listed' : List (DeclId × Substitution)}
    (related : List.Forall₂ (ListedTwin f s t) listed listed') : List.Forall₂ (ListedTwin f s t)
      (firstOccurrences seen listed) (firstOccurrences (seen.map f) listed') := by
  induction related generalizing seen with
  | nil => exact .nil
  | @cons entry entry' rest rest' first others ih =>
    obtain ⟨id, substitution⟩ := entry
    obtain ⟨id', substitution'⟩ := entry'
    have e : id' = f id := first.id
    subst e
    have known : f id ∈ seen.map f ↔ id ∈ seen := List.mem_map_of_injective injective
    rw [firstOccurrences, firstOccurrences]
    by_cases hs : id ∈ seen
    · rw [if_pos hs, if_pos (known.2 hs)]
      exact ih seen
    · rw [if_neg hs, if_neg fun hs' => hs (known.1 hs')]
      exact .cons first (ih (id :: seen))

theorem inheritedMember?_renames (fixed : f .invalid = .invalid)
    {listed listed' : DeclId × Substitution} (same : ListedTwin f s t listed listed')
    {member member' : Option Inherited} (ok : inheritedMember? s listed = .ok member)
    (ok' : inheritedMember? t listed' = .ok member') :
    Option.Rel (Inherited.Renames f) member member' := by
  obtain ⟨declaration, stored, e⟩ := inheritedMember?_eq_ok_iff.1 ok
  obtain ⟨declaration', stored', e'⟩ := inheritedMember?_eq_ok_iff.1 ok'
  have twin := same.twin
  rw [stored, stored'] at twin
  have twin := Option.rel_some_some.1 twin
  cases callable : declaration.isCallable with
  | true =>
    have eq := twin.eq callable
    have visible : declaration'.visibility = declaration.visibility := by
      rw [← Declaration.visibility_silent declaration', eq, Declaration.visibility_rename,
        Declaration.visibility_silent]
    have signed : Signature.of? declaration' listed'.2 =
        (Signature.of? declaration listed.2).map (Signature.rename f) := by
      rw [← Signature.of?_silent declaration', eq,
        Signature.of?_rename injective fixed same.substitution, Signature.of?_silent]
    rw [visible, signed] at e'
    rw [e, e']
    split
    · cases Signature.of? declaration listed.2 with
      | none => exact .none
      | some signature => exact .some ⟨eq, same.substitution, rfl⟩
    · exact .none
  | false =>
    have absent : Signature.of? declaration listed.2 = none := Signature.of?_eq_none_iff.2 callable
    have absent' : Signature.of? declaration' listed'.2 = none :=
      Signature.of?_eq_none_iff.2 (twin.callable.trans callable)
    rw [e, e', absent, absent']
    split <;> split <;> exact .none

/-- What a class inherits from renamed supertypes is what it inherits, renamed. -/
theorem inheritedMembers_renames (fixed : f .invalid = .invalid)
    {supertypes supertypes' : List SupertypeMembers}
    (related : List.Forall₂ (SupertypeMembers.Renames f) supertypes supertypes')
    (twins : ∀ m ∈ supertypes, ∀ id ∈ m.members, Option.Rel (Declaration.Twin f) (s.get? id)
      (t.get? (f id)))
    {inherited inherited' : List Inherited} (ok : inheritedMembers s supertypes = .ok inherited)
    (ok' : inheritedMembers t supertypes' = .ok inherited') :
    List.Forall₂ (Inherited.Renames f) inherited inherited' := by
  obtain ⟨members, steps, rfl⟩ := inheritedMembers_eq_ok_iff.1 ok
  obtain ⟨members', steps', rfl⟩ := inheritedMembers_eq_ok_iff.1 ok'
  have listed :=
    firstOccurrences_renames injective [] (listedMembers_renames injective related twins)
  rw [List.map_nil] at listed
  refine List.rel_filterMap (fun _ _ found => found) (forall₂_square ?_ listed steps steps')
  exact fun same step step' => inheritedMember?_renames injective fixed same step step'

omit injective in
/-- The declared members of a class that was read elsewhere are renamed ones. -/
theorem declared_renames {declared : List DeclId} {declarations declarations' : List Declaration}
    (ok : declared.mapM s.resolve = .ok declarations)
    (ok' : (declared.map f).mapM t.resolve = .ok declarations')
    (twins : ∀ id ∈ declared, Option.Rel (Declaration.Twin f) (s.get? id) (t.get? (f id))) :
    List.Forall₂ (Declaration.Twin f) declarations declarations' := by
  have listed :
      List.Forall₂ (fun id id' => id' = f id ∧ id ∈ declared) declared (declared.map f) := by
    rw [List.forall₂_map_right_iff]
    exact List.forall₂_same.2 fun id hid => ⟨rfl, hid⟩
  refine forall₂_square ?_ listed (mapM_eq_ok_iff.1 ok) (mapM_eq_ok_iff.1 ok')
  rintro id _ declaration declaration' ⟨rfl, hid⟩ found found'
  have twin := twins id hid
  rw [Store.resolve_eq_ok_iff.1 found, Store.resolve_eq_ok_iff.1 found'] at twin
  exact Option.rel_some_some.1 twin

end Injective

theorem Declaration.Twin.signature (injective : Function.Injective f)
    (fixed : f .invalid = .invalid) {declaration twin : Declaration} (h : declaration.Twin f twin) :
    Signature.of? twin .identity =
      (Signature.of? declaration .identity).map (Signature.rename f) := by
  cases callable : declaration.isCallable with
  | true =>
    rw [← Signature.of?_silent twin, h.eq callable, Signature.of?_rename injective fixed .identity,
      Signature.of?_silent]
  | false =>
    rw [Signature.of?_eq_none_iff.2 callable,
      Signature.of?_eq_none_iff.2 (h.callable.trans callable)]
    rfl

end ClassSymbols
