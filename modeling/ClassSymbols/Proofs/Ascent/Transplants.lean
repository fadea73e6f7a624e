import ClassSymbols.Proofs.Ascent.Enclosed
import ClassSymbols.Proofs.Overrides.RenamedComparisons
import ClassSymbols.Proofs.Overrides.RenamedInheritance

/-!
# Syntheses on other stores

A synthesis looks at declared members, at the members that supertypes list, and at how the lookup
settles them. On another store in which all of this is alike, and which gives out the same ids, it
has the same result: the renaming between the two runs is the identity.

## Main definitions

* `Store.Alike` — whether two stores have the same declaration under an id, as far as overriding is
  concerned.

## Main statements

* `synthesizeWith_eq_of_alike` — the synthesis on another store.
-/

namespace ClassSymbols

/-! ## Renaming nothing -/

/-- The set of all ids has all that a declaration refers to. -/
theorem Declaration.owned_of_forall {P : DeclId → Prop} (declaration : Declaration)
    (all : ∀ id, P id) :
    declaration.Owned P where
  container id _ := all id
  typeParameters parameter _ := ⟨all parameter.owner, fun _ _ ref _ => all ref.owner⟩
  types _ _ ref _ := all ref.owner

section Callable

variable {declaration : Declaration} (callable : declaration.isCallable = true)
include callable

theorem rename_id_of_isCallable : declaration.rename id = declaration :=
  (declaration.owned_of_forall fun _ => rfl).rename_eq_self rfl callable (List.map_id _)

theorem twin_id_of_isCallable : declaration.Twin id declaration := by
  refine (declaration.owned_of_forall fun _ => rfl).twin_self rfl fun data hc => ?_
  simp [Declaration.class?_eq_none_of_isCallable callable] at hc

end Callable

/-- A set in which nothing is renamed is the same. -/
theorem OverrideSet.Renames.eq {set renamed : OverrideSet} (h : set.Renames id renamed) :
    renamed = set := by
  have groups : renamed.groups = set.groups :=
    OrderedMap.Related.eq (h.groups.imp fun _ _ both => ⟨both.1, both.2.trans (List.map_id _)⟩)
  have overridden : renamed.overridden = set.overridden :=
    OrderedMap.Related.eq (h.overridden.imp fun _ _ both => ⟨both.1, both.2.trans (List.map_id _)⟩)
  obtain ⟨owner, _, _⟩ := renamed
  obtain rfl : owner = set.owner := h.owner
  subst groups overridden
  rfl

/-- The fake overrides of a run have the ids that are next, one after the other. -/
theorem SynthesisInput.id_of_getElem?_pending {input : SynthesisInput} {inherited : List Inherited}
    {i : Nat} {fake : Declaration} (at_i : (input.run inherited).pending[i]? = some fake) :
    fake.id = ⟨input.store.next.number + i⟩ := by
  have given : (input.run inherited).pending.map (·.id) = _ := input.map_id_pending_run
  have position := congrArg (·[i]?) given
  obtain ⟨below, rfl⟩ := List.getElem?_eq_some_iff.1 at_i
  simpa [List.getElem?_range', below] using position

/-! ## Two stores -/

/-- Whether two stores have the same declaration under an id, as far as overriding is concerned. -/
def Store.Alike (s t : Store) (x : DeclId) : Prop :=
  Option.Rel (Declaration.Twin id) (s.get? x) (t.get? x)

theorem Store.Alike.isSome {s t : Store} {x : DeclId} (h : s.Alike t x)
    (stored : (s.get? x).isSome) :
    (t.get? x).isSome := by
  obtain ⟨declaration, stored⟩ := Option.isSome_iff_exists.1 stored
  unfold Alike at h
  rw [stored] at h
  obtain ⟨declaration', stored', -⟩ := exists_of_rel_some h
  exact Option.isSome_of_mem stored'

section Transplant

variable {s t : Store} {options : SynthesisOptions} {lookup lookup' : OverriddenLookup}
  {owner : DeclId} {declared : List DeclId} {supertypes : List SupertypeMembers}
  (natural : options.relation.Natural) (wf : s.WellFormed) (wf' : t.WellFormed)
  (next : t.next = s.next) (own : ∀ x ∈ declared, s.Alike t x)
  (offered : ∀ m ∈ supertypes, ∀ x ∈ m.members, s.Alike t x)
  (finds : FindsTwins id s t fun _ => True)
include natural next own offered finds

/-- Runs that read the same find the same. -/
theorem SynthesisInput.Reads.run_eq_of_alike {declarations declarations' : List Declaration}
    {inherited inherited' : List Inherited}
    (reads : Reads ⟨s, options, lookup, owner, declarations⟩ declared supertypes inherited)
    (reads' : Reads ⟨t, options, lookup', owner, declarations'⟩ declared supertypes inherited')
    (settles : ∀ {name bucket}, .settle name bucket ∈
        (⟨s, options, lookup, owner, declarations⟩ : SynthesisInput).events inherited →
      SettlesAlike id lookup lookup' bucket.ids) :
    outcome ⟨t, options, lookup', owner, declarations'⟩ inherited' =
        outcome ⟨s, options, lookup, owner, declarations⟩ inherited ∧
      (run ⟨t, options, lookup', owner, declarations'⟩ inherited').next =
        (run ⟨s, options, lookup, owner, declarations⟩ inherited).next := by
  let input : SynthesisInput := ⟨s, options, lookup, owner, declarations⟩
  let input' : SynthesisInput := ⟨t, options, lookup', owner, declarations'⟩
  have resolved' : (declared.map id).mapM t.resolve = .ok declarations' := by
    rw [List.map_id]
    exact reads'.resolved
  have same : List.Forall₂ (SupertypeMembers.Renames id) supertypes supertypes := by
    refine List.forall₂_same.2 fun m _ => ⟨?_, rfl, (List.map_id _).symm⟩
    exact (Ty.Owned.rename_eq_self fun _ _ => rfl).symm
  have inherits :=
    inheritedMembers_renames Function.injective_id rfl same offered reads.offered reads'.offered
  have renames : input.Renames id input' inherited :=
    { injective := Function.injective_id
      fixed := rfl
      options := rfl
      owner := rfl
      declared := (declared_renames reads.resolved resolved' own).imp fun d d' twin =>
        ⟨twin.id, twin.name, twin.signature Function.injective_id rfl⟩
      compares := fun _ _ => natural.holds_rename Function.injective_id fun _ =>
        ⟨finds, fun _ _ => trivial, fun _ _ => trivial⟩
      settles := settles
      callable := fun _ hm => reads.isCallable hm }
  have ids (i : Nat) (fake fake' : Declaration)
    (at_i : (input.run inherited).pending[i]? = some fake)
      (at_i' : (input'.run inherited').pending[i]? = some fake') : fake'.id = id fake.id := by
    have start : input'.store.next = input.store.next := next
    rw [id_of_getElem?_pending at_i', start]
    exact (id_of_getElem?_pending at_i).symm
  obtain ⟨set, conflicts, pending⟩ := renames.run inherits ids
  have set := set.eq
  have conflicts : (input'.run inherited').conflicts = (input.run inherited).conflicts :=
    conflicts.trans (List.map_id _)
  have pending : (input'.run inherited').pending = (input.run inherited).pending :=
    pending.trans ((List.map_congr_left fun fake hf =>
      rename_id_of_isCallable (reads.isCallable_of_mem_pending hf).1).trans (List.map_id _))
  refine ⟨?_, ?_⟩
  · simp only [outcome]
    congr 1
  · have number : (input'.run inherited').next.number = (input.run inherited).next.number := by
      have start : input'.store.next = input.store.next := next
      rw [input'.next_run, input.next_run, start, pending]
    exact congrArg DeclId.mk number

include wf wf'

/-- A synthesis has the same result on a store in which all that it looks at is alike. -/
theorem synthesizeWith_eq_of_alike {synthesis : OverrideSynthesis} {after : Store}
    (ok : synthesizeWith options lookup owner declared supertypes s = .ok synthesis after)
    (settles : ∀ declarations inherited,
      SynthesisInput.Reads ⟨s, options, lookup, owner, declarations⟩ declared supertypes inherited →
      ∀ {name bucket}, .settle name bucket ∈
      (⟨s, options, lookup, owner, declarations⟩ : SynthesisInput).events inherited →
      SettlesAlike id lookup lookup' bucket.ids) :
    synthesizeWith options lookup' owner declared supertypes t =
      .ok synthesis { t with next := after.next } := by
  obtain ⟨declarations, inherited, reads, rfl, rfl⟩ := (synthesizeWith_eq_ok_iff wf).1 ok
  have resolved : ∀ x ∈ declared, (s.get? x).isSome := by
    intro x hx
    obtain ⟨declaration, -, found⟩ :=
    exists_mem_of_forall₂_left (mapM_eq_ok_iff.1 reads.resolved) hx
    exact Option.isSome_of_mem (Store.resolve_eq_ok_iff.1 found)
  have stored : ∀ m ∈ supertypes, ∀ x ∈ m.members, (s.get? x).isSome := by
    intro m hm x hx
    obtain ⟨declaration, stored⟩ := exists_get?_of_listed reads.offered ⟨m, hm, hx⟩
    exact Option.isSome_of_mem stored
  obtain ⟨synthesis', after', ok'⟩ := exists_synthesizeWith options lookup' owner
    (fun x hx => (own x hx).isSome (resolved x hx)) fun m hm x hx =>
      (offered m hm x hx).isSome (stored m hm x hx)
  obtain ⟨declarations', inherited', reads', rfl, rfl⟩ := (synthesizeWith_eq_ok_iff wf').1 ok'
  obtain ⟨result, last⟩ := reads.run_eq_of_alike natural next own offered finds reads'
    (settles declarations inherited reads)
  rw [ok']
  exact congrArg₂ EStateM.Result.ok result (congrArg (fun next => { t with next }) last)

end Transplant

end ClassSymbols
