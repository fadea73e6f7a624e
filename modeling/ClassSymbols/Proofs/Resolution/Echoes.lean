import ClassSymbols.Proofs.Resolution.Cycles

/-!
# Resolutions with more results

A result that is kept is the answer before anything else is checked. So results that are kept do no
harm: a resolution that succeeds also succeeds where more classes have results. The two runs resolve
the supertypes in the same order, and the second one stops at the classes that have results already,
which needs no further room.

## Main definitions

* `Workspace.Echoed`, `Workspace.EchoedAll` — whether a resolution that succeeds also succeeds where
  more classes have results.

## Main statements

* `Workspace.Grounded.exists_gives_of_closed` — a class is resolved if the classes above it have
  results.
* `Workspace.echoRule` — every resolution is echoed.
-/

namespace ClassSymbols

namespace Workspace

/-! ## Runs put together -/

section Runs

variable {w w₁ w' : Workspace} {id : DeclId} {data : ClassData} {visiting : List DeclId}
  {room : Nat} {resolve : DeclId → EffectiveM OverrideSynthesis} {supertype : Ty} {rest : List Ty}

/-- A class without a result that is not being resolved has one computed from the members of its
supertypes. -/
theorem gives_resolveWithin_of_missed (isClass : w.store.IsClass id data)
    (miss : w.effective.cache.get? (id, data.supertypes) = none) (free : id ∉ visiting)
    {members : List SupertypeMembers}
    (supers : Gives (supertypeMembers (resolveWithin room (id :: visiting)) data.supertypes) w
      (.ok members) w₁)
    {r : Except SymbolError OverrideSynthesis}
    (made : Gives (computeFrom id data members) w₁ r w') :
    Gives (resolveWithin (room + 1) visiting id) w r w' := by
  obtain ⟨declaration, stored, hc⟩ := isClass
  have request : w.request visiting id = .ok (.compute declaration.name data) := by
    simp [Workspace.request, Store.resolve_eq_ok_iff.2 stored, hc, miss, free, bind, Except.bind,
      pure, Except.pure]
  unfold resolveWithin
  refine gives_get_bind_iff.2 ?_
  rw [request]
  exact gives_bind_iff.2 (.inr ⟨members, w₁, supers, made⟩)

theorem gives_supertypeMembers_skipped (search : supertype.classId?.bind w.store.findClass? = none)
    {r : Except SymbolError (List SupertypeMembers)}
    (others : Gives (supertypeMembers resolve rest) w r w') :
    Gives (supertypeMembers resolve (supertype :: rest)) w r w' := by
  refine gives_get_bind_iff.2 ?_
  simp only [search]
  exact others

theorem gives_supertypeMembers_found {owner : DeclId}
    (search : supertype.classId?.bind w.store.findClass? = some owner)
    {synthesis : OverrideSynthesis} (first : Gives (resolve owner) w (.ok synthesis) w₁)
    {members : List SupertypeMembers}
    (others : Gives (supertypeMembers resolve rest) w₁ (.ok members) w') :
    Gives (supertypeMembers resolve (supertype :: rest)) w
      (.ok (⟨supertype, owner, synthesis.set.memberIds⟩ :: members))
      w' := by
  refine gives_get_bind_iff.2 ?_
  simp only [search]
  exact gives_bind_iff.2 (.inr ⟨synthesis, w₁, first,
    gives_bind_iff.2 (.inr ⟨members, w', others, gives_pure_iff.2 ⟨rfl, rfl⟩⟩)⟩)

/-- Supertypes whose classes have results are resolved without a change. -/
theorem exists_gives_supertypeMembers_of_known {supertypes : List Ty}
    (known : ∀ supertype ∈ supertypes,
      ∀ owner, supertype.classId?.bind w.store.findClass? = some owner → (w.result? owner).isSome) :
    ∃ members,
      Gives (supertypeMembers (resolveWithin room visiting) supertypes) w (.ok members) w := by
  induction supertypes with
  | nil => exact ⟨[], gives_pure_iff.2 ⟨rfl, rfl⟩⟩
  | cons supertype rest ih =>
    obtain ⟨members, others⟩ := ih (List.forall_mem_cons.1 known).2
    cases search : supertype.classId?.bind w.store.findClass? with
    | none => exact ⟨members, gives_supertypeMembers_skipped search others⟩
    | some owner =>
      obtain ⟨result, known⟩ :=
        Option.isSome_iff_exists.1 (known supertype List.mem_cons_self owner search)
      obtain ⟨data, isClass, kept⟩ := result?_eq_some_iff.1 known
      exact ⟨_,
        gives_supertypeMembers_found search (gives_resolveWithin_of_kept isClass kept) others⟩

end Runs

/-! ## Resolutions with more results -/

/-- Whether a resolution that succeeds also succeeds wherever the classes that have results here,
and perhaps more, have results, and leaves results for those that have them here afterwards. -/
def Echoed (origin : Store) (room : Nat) (visiting : List DeclId) (w : Workspace) (id : DeclId)
    (r : Except SymbolError OverrideSynthesis) (w' : Workspace) : Prop :=
  ∀ result, r = .ok result → ∀ u : Workspace, u.Grounded origin → u.Covers w →
    ∃ result' u', Gives (resolveWithin room visiting id) u (.ok result') u' ∧ u'.Covers w'

/-- Whether the same is true of the resolution of supertypes. -/
def EchoedAll (origin : Store) (room : Nat) (visiting : List DeclId) (w : Workspace)
    (supertypes : List Ty) (r : Except SymbolError (List SupertypeMembers)) (w' : Workspace) :
    Prop :=
  ∀ members, r = .ok members → ∀ u : Workspace, u.Grounded origin → u.Covers w →
    ∃ members' u', Gives (supertypeMembers (resolveWithin room visiting) supertypes) u
      (.ok members') u' ∧ u'.Covers w'

section Echo

variable {origin : Store} (eager : origin.Eager)
  (listed : ∀ {id declared}, origin.members? id = some declared →
    ∀ member ∈ declared, member.number < origin.next.number)
  {u w w₁ w' : Workspace} {id : DeclId} {room : Nat} {visiting : List DeclId}
include eager

theorem Grounded.found_known (h : u.Grounded origin) {data : ClassData}
    (isClass : u.store.IsClass id data)
    (above : ∀ parent, origin.Parent id parent → (u.result? parent).isSome) :
    ∀ supertype ∈ data.supertypes, ∀ owner,
      supertype.classId?.bind u.store.findClass? = some owner → (u.result? owner).isSome := by
  intro supertype hs owner found
  rw [findClass?_of_grounded eager h] at found
  exact above owner ((h.parent_iff isClass).2 ⟨supertype, hs, found⟩)

include listed

/-- Once the supertypes of a class are resolved, a result is computed if the members of the class
are stored. -/
theorem Grounded.exists_gives_computeFrom (h : u.Grounded origin) {data : ClassData}
    (isClass : u.store.IsClass id data) (readable : origin.Readable id) {supertypes : List Ty}
    {members : List SupertypeMembers}
    (supers : Gives (supertypeMembers (resolveWithin room visiting) supertypes) u (.ok members) w) :
    ∃ result w', Gives (computeFrom id data members) w (.ok result) w' := by
  have verdicts := h.verdicts eager listed supers
  obtain ⟨data', isClass', -⟩ := verdicts.grows.isClass isClass
  obtain ⟨declared, known', known⟩ := verdicts.grounded.exists_members? eager isClass'
  obtain ⟨_, same, own⟩ := readable id .refl
  obtain rfl := Option.some.inj (known.symm.trans same)
  exact Workspace.exists_gives_computeFrom data (gives_classMembers_of_known known')
    (fun member hm => verdicts.grounded.grows.isSome (own member hm))
      (verdicts.resolved members rfl).1

/-- A class is resolved, in any room, if the classes above it have results. -/
theorem Grounded.exists_gives_of_closed (h : u.Grounded origin) (readable : origin.Readable id)
    (above : ∀ parent, origin.Parent id parent → (u.result? parent).isSome) (positive : 0 < room) :
    ∃ result u', Gives (resolveWithin room [] id) u (.ok result) u' := by
  obtain ⟨room, rfl⟩ := Nat.exists_eq_add_one.2 positive
  obtain ⟨_, known, -⟩ := readable id .refl
  obtain ⟨old, original, -⟩ := Store.members?_eq_some_iff.1 known
  obtain ⟨data, isClass, -⟩ := h.grows.isClass original
  cases known : u.effective.cache.get? (id, data.supertypes) with
  | some kept => exact ⟨kept, u, gives_resolveWithin_of_kept isClass known⟩
  | none =>
    obtain ⟨members, supers⟩ :
        ∃ members,
          Gives (supertypeMembers (resolveWithin room [id]) data.supertypes) u (.ok members) u :=
      exists_gives_supertypeMembers_of_known (h.found_known eager isClass above)
    obtain ⟨result, u', made⟩ := h.exists_gives_computeFrom eager listed isClass readable supers
    exact ⟨result, u', gives_resolveWithin_of_missed isClass known (by simp) supers made⟩

theorem echoed_of_computeFrom {data : ClassData} {members : List SupertypeMembers}
    {r : Except SymbolError OverrideSynthesis} (h : w.Grounded origin)
    (isClass : w.store.IsClass id data) (free : id ∉ visiting)
    (verdicts : Verdicts origin room (id :: visiting) w data.supertypes (.ok members) w₁)
    (echoed : EchoedAll origin room (id :: visiting) w data.supertypes (.ok members) w₁)
    (made : Gives (computeFrom id data members) w₁ r w') :
    Echoed origin (room + 1) visiting w id r w' := by
  rintro result rfl u grounded covers
  obtain ⟨founded, -⟩ :=
    (verdict_of_computeFrom eager listed h isClass verdicts made).resolved result rfl
  obtain ⟨data₁, isClass₁, unread⟩ := verdicts.grows.isClass isClass
  have after := verdicts.grounded.isSome_result?_computeFrom_iff eager
    ⟨data₁, isClass₁, ClassData.supertypes_eq unread⟩ made
  obtain ⟨old, original⟩ := founded.exists_isClass
  obtain ⟨data', isClass', -⟩ := grounded.grows.isClass original
  have same : data'.supertypes = data.supertypes :=
    (grounded.grows.supertypes_eq original isClass').trans
      (h.grows.supertypes_eq original isClass).symm
  obtain ⟨members', u₁, supers, covers₁⟩ := echoed members rfl u grounded covers
  rw [← same] at supers
  cases known : u.effective.cache.get? (id, data'.supertypes) with
  | some kept =>
    -- All that was resolved here has results there already.
    have resolved : (u.result? id).isSome :=
      Option.isSome_of_mem (result?_eq_some_iff.2 ⟨data', isClass', known⟩)
    obtain ⟨_, unchanged⟩ := exists_gives_supertypeMembers_of_known
      (grounded.found_known eager isClass' fun _ => grounded.closed resolved)
    obtain ⟨-, rfl⟩ := supers.unique unchanged
    refine ⟨kept, u₁, gives_resolveWithin_of_kept isClass' known, fun x hx => ?_⟩
    rcases (after x).1 hx with rfl | hx
    · exact resolved
    · exact covers₁ x hx
  | none =>
    obtain ⟨result', u', made'⟩ :=
      grounded.exists_gives_computeFrom eager listed isClass' founded.readable supers
    refine ⟨result', u', gives_resolveWithin_of_missed isClass' known free supers made',
      fun x hx => ?_⟩
    have verdicts' := grounded.verdicts eager listed supers
    obtain ⟨data₂, isClass₂, unread'⟩ := verdicts'.grows.isClass isClass'
    apply (verdicts'.grounded.isSome_result?_computeFrom_iff eager
      ⟨data₂, isClass₂, ClassData.supertypes_eq unread'⟩ made' x).2
    exact ((after x).1 hx).imp_right (covers₁ x)

/-- Results that are kept do no harm: a resolution that succeeds also succeeds where more classes
have results. -/
theorem echoRule : BoundedRule
    (fun room visiting w id r w' => w.Grounded origin →
      Verdict origin room visiting w id r w' ∧ Echoed origin room visiting w id r w')
    (fun room visiting w supertypes r w' => w.Grounded origin →
      Verdicts origin room visiting w supertypes r w' ∧
      EchoedAll origin room visiting w supertypes r w') where
  refused asked h := ⟨(groundedRule eager listed).refused asked h, nofun⟩
  kept {room visiting w id data synthesis} isClass kept h := by
    refine ⟨(groundedRule eager listed).kept isClass kept h, ?_⟩
    intro _ _ u grounded covers
    obtain ⟨result, known⟩ := Option.isSome_iff_exists.1
      (covers id (Option.isSome_of_mem (result?_eq_some_iff.2 ⟨data, isClass, kept⟩)))
    obtain ⟨data', isClass', kept'⟩ := result?_eq_some_iff.1 known
    exact ⟨result, u, gives_resolveWithin_of_kept isClass' kept', covers⟩
  full isClass miss free h := ⟨(groundedRule eager listed).full isClass miss free h, nofun⟩
  blocked isClass miss free supers h :=
    ⟨(groundedRule eager listed).blocked isClass miss free (fun h => (supers h).1) h, nofun⟩
  computed isClass miss free supers made h := by
    obtain ⟨verdicts, echoed⟩ := supers h
    exact ⟨verdict_of_computeFrom eager listed h isClass verdicts made,
      echoed_of_computeFrom eager listed h isClass free verdicts echoed made⟩
  none {room visiting w} h := by
    refine ⟨(groundedRule eager listed).none h, ?_⟩
    intro _ _ u _ covers
    exact ⟨[], u, gives_pure_iff.2 ⟨rfl, rfl⟩, covers⟩
  skipped {room visiting w supertype rest r w'} search others h := by
    refine ⟨(groundedRule eager listed).skipped search (fun h => (others h).1) h, ?_⟩
    intro members e u grounded covers
    rw [findClass?_of_grounded eager h, ← findClass?_of_grounded eager grounded] at search
    obtain ⟨members', u', run, covers'⟩ := (others h).2 members e u grounded covers
    exact ⟨members', u', gives_supertypeMembers_skipped search run, covers'⟩
  stopped search first h :=
    ⟨(groundedRule eager listed).stopped search (fun h => (first h).1) h, nofun⟩
  halted search first others h :=
    ⟨(groundedRule eager listed).halted search (fun h => (first h).1) (fun h => (others h).1) h,
      nofun⟩
  found {room visiting w supertype rest owner synthesis w₁ members w'} search first others h := by
    refine ⟨(groundedRule eager listed).found search (fun h => (first h).1)
      (fun h => (others h).1) h, ?_⟩
    intro _ _ u grounded covers
    rw [findClass?_of_grounded eager h, ← findClass?_of_grounded eager grounded] at search
    obtain ⟨verdict, echoed⟩ := first h
    obtain ⟨result, u₁, run, covers₁⟩ := echoed synthesis rfl u grounded covers
    have grounded₁ := (grounded.verdict eager listed run).grounded
    obtain ⟨members', u', runs, covers'⟩ :=
      (others verdict.grounded).2 members rfl u₁ grounded₁ covers₁
    exact ⟨_, u', gives_supertypeMembers_found search run runs, covers'⟩

end Echo

end Workspace

end ClassSymbols
