import ClassSymbols.Proofs.Data.Grouping
import ClassSymbols.Proofs.Loading.MemberPaths
import ClassSymbols.Proofs.Runs.LazyMembers

/-!
# Paths name what they lead to

A path goes down from a package fragment, from each class to one of its members. The members of a
class were read in the context inside it, so each of them is contained in it. The containers of what
a path leads to therefore go up the same way, and the names of the declarations on it are those that
the path is made of.

## Main definitions

* `Store.ReadIn` — whether a declaration was read, and is contained in another one.
* `Store.HasFragment` — whether a package fragment that was loaded is stored, with its top-level
  classes.

## Main statements

* `Store.Traced.readIn_of_classMembers` — the members of a class that was read are contained in it.
* `hasFragment_of_loadAll` — the package fragments of a module that was loaded are stored.
* `PathLeads.exists_chain` — the declarations that a path leads through.
* `findMemberPath_names` — the names of the declarations around what a path finds.
-/

namespace ClassSymbols

open Relation Store

variable {s s' t : Store} {id outer : DeclId} {name : String}

namespace Store

/-- Whether the declaration under an id was read, and is contained in another one. -/
def ReadIn (store : Store) (outer id : DeclId) : Prop :=
  ∃ declaration, store.get? id = some declaration ∧ declaration.container = some outer ∧
    declaration.origin = .deserialized

theorem ReadIn.mono (wider : s.Extends t) (h : s.ReadIn outer id) : t.ReadIn outer id := by
  obtain ⟨declaration, stored, inside, origin⟩ := h
  obtain ⟨declaration', stored', same⟩ := wider.kept stored
  exact ⟨declaration', stored',
    (Declaration.congr_unread Declaration.container_unread same).trans inside,
    (Declaration.congr_unread Declaration.origin_unread same).trans origin⟩

/-! ## The members of classes -/

/-- A member that was read in a context was read in the innermost declaration there. -/
theorem Transcribes.readIn {context : ScopeContext} {record : MemberRecord}
    (h : s.Transcribes context record id) :
    s.ReadIn context.owner id := by
  obtain ⟨declaration, stored, inside⟩ := h.exists_contained
  obtain ⟨_, _, declaration', _, -, stored', read⟩ := h
  obtain rfl := Option.some.inj (stored.symm.trans stored')
  exact ⟨declaration, stored, inside,
    declaration.origin_unread ▸ (record.fresh_reader _ _ read).2.1⟩

/-- The members of a class that was read are contained in it. -/
theorem Traced.readIn_of_classMembers (h : s.Traced) (read : s.ReadIn outer id)
    {members : List DeclId} (asked : Gives (classMembers id) s (.ok members) t) :
    t.Traced ∧ s.Extends t ∧ ∀ member ∈ members, t.ReadIn id member := by
  obtain ⟨traced, wider⟩ :=
    h.of_steps (.single (.members id _ asked) : ReflTransGen (Step fun _ => True) s t)
  refine ⟨traced, wider, fun member hm => ?_⟩
  have known := (classMembers_wellFormed h.toWellFormed asked).2.2 members rfl
  obtain ⟨data, isClass, known⟩ := members?_eq_some_iff.1 known
  obtain ⟨declaration, stored, hc⟩ := isClass
  obtain ⟨declaration', stored', -, origin⟩ := read.mono wider
  obtain rfl := Option.some.inj (stored.symm.trans stored')
  -- a class that was read has the members that its records were read as
  obtain ⟨reading, hr⟩ := traced.deferred stored origin hc
  rw [hr] at known
  obtain ⟨record, -, transcribed⟩ :=
    exists_mem_of_forall₂ (traced.transcribed ⟨declaration, stored, hc⟩ hr known) hm
  exact (traced.inside ⟨declaration, stored, hc⟩ hr).owner_eq traced.keyed ▸ transcribed.readIn

/-! ## Package fragments -/

/-- Whether a package fragment of a name is stored, in a module and with its top-level classes. -/
structure HasFragment (store : Store) (name : String) (fragment : LoadedFragment) : Prop where
  chain : ∃ module declaration,
    store.Chain fragment.id [module, declaration] ∧ declaration.name = name ∧
    declaration.package?.isSome = true
  classes : ∀ id ∈ fragment.classes, store.ReadIn fragment.id id

theorem HasFragment.mono {fragment : LoadedFragment} (wider : s.Extends t)
    (h : s.HasFragment name fragment) :
    t.HasFragment name fragment := by
  refine ⟨?_, fun id hc => (h.classes id hc).mono wider⟩
  obtain ⟨module, declaration, chained, named, package⟩ := h.chain
  obtain ⟨chain', chained', same⟩ := chained.mono wider
  obtain ⟨module', _, rfl, -, inner⟩ := List.map_eq_cons_iff.1 same
  obtain ⟨declaration', _, rfl, unread, last⟩ := List.map_eq_cons_iff.1 inner
  obtain rfl := List.map_eq_nil_iff.1 last
  refine ⟨module', declaration', chained',
    (Declaration.congr_unread Declaration.name_unread unread).trans named, ?_⟩
  rwa [Declaration.congr_unread Declaration.package?_unread unread]

end Store

/-! ## Loading -/

/-- A chain of one declaration is that of a module. -/
theorem Store.Chain.hasModule {outermost : Declaration} (h : s.Chain id [outermost]) :
    s.HasModule id := by
  obtain ⟨module, rest, first, isModule⟩ := h.exists_cons
  obtain ⟨above, declaration, last, stored⟩ := h.exists_concat
  obtain ⟨rfl, rfl⟩ := List.cons.inj first
  obtain rfl : outermost = declaration := by simpa using congrArg List.getLast? last
  exact ⟨outermost, stored, isModule⟩

theorem Store.exists_chain_singleton_mono (wider : s.Extends t)
    (h : ∃ outermost, s.Chain id [outermost]) :
    ∃ outermost, t.Chain id [outermost] := by
  obtain ⟨outermost, top⟩ := h
  obtain ⟨chain, top', same⟩ := top.mono wider
  obtain ⟨outermost', _, rfl, -, last⟩ := List.map_eq_cons_iff.1 same
  obtain rfl := List.map_eq_nil_iff.1 last
  exact ⟨outermost', top'⟩

section Fragments

variable {table : SymbolTable} {module : DeclId}

/-- A package fragment is stored in its module. -/
theorem hasFragment_of_loadFragment (top : ∃ outermost, s'.Chain module [outermost])
    (h : Gives (loadFragment table module name) s (.ok id) s') : s'.HasFragment name ⟨id, []⟩ := by
  obtain ⟨outermost, top⟩ := top
  rcases loadFragment_cases h with ⟨_, contra, -⟩ | ⟨data, e, made⟩
  · cases contra
  obtain rfl := Except.ok.inj e
  have stored : s'.get? s.next =
      some { id := s.next, name, container := some module, kind := .package data } := by
    rw [made, get?_insert, if_pos rfl]
  exact ⟨⟨outermost, _, .inner stored rfl top, rfl, rfl⟩, fun _ hc => nomatch hc⟩

/-- The top-level classes of a package fragment are stored in it. -/
theorem readIn_of_loadTopLevelClasses {fragment : Declaration} {classes : List DeclId}
    (h : Gives (loadTopLevelClasses table fragment) s (.ok classes) s') :
    ∀ id ∈ classes, s'.ReadIn fragment.id id := by
  rcases loadTopLevelClasses_cases h with ⟨_, _, contra, -⟩ |
    ⟨data, next, ds, -, e, batch, rfl, read⟩
  · cases contra
  obtain rfl := Except.ok.inj e
  intro id hc
  obtain ⟨d, hd, rfl⟩ := List.mem_map.1 hc
  obtain ⟨path, record, made⟩ := read d hd
  exact ⟨d, batch.get?_receive_of_mem hd, (Declaration.Within.of_readClass made).container,
    (Site.fresh_readClass record made).2.1⟩

/-- A package fragment is stored in its module, and its top-level classes in it. -/
theorem hasFragment_of_loadFragmentWithClasses (anchored : s.Anchored)
    (top : ∃ outermost, s.Chain module [outermost]) {fragment : LoadedFragment}
    (h : Gives (loadFragmentWithClasses table module name) s (.ok fragment) s') :
    s'.HasFragment name fragment := by
  obtain ⟨id, s₁, begun, later⟩ := bind_eq_ok_iff.1 h
  have begun := gives_ok_iff.2 begun
  have adds : ReflTransGen (Adds fun _ => True) s s₁ :=
    adds_of_loadFragment top.choose_spec.hasModule begun
  obtain ⟨anchored₁, wider⟩ := anchored.of_additions adds
  have here := hasFragment_of_loadFragment (exists_chain_singleton_mono wider top) begun
  obtain ⟨declaration, s₂, found, last⟩ := bind_eq_ok_iff.1 later
  obtain ⟨resolved, rfl⟩ := gives_reading_iff.1 (gives_ok_iff.2 found)
  have stored := resolve_eq_ok_iff.1 resolved.symm
  obtain rfl := anchored₁.keyed stored
  obtain ⟨classes, read, rfl⟩ := bind_pure_eq_ok_iff.1 last
  have read := gives_ok_iff.2 read
  have adds' : Adds (fun _ => True) s₂ s' := adds_of_loadTopLevelClasses stored read
  exact ⟨(here.mono (anchored₁.of_adds adds').2).chain, readIn_of_loadTopLevelClasses read⟩

end Fragments

/-- The package fragments of a module that was loaded are stored under their names. -/
theorem hasFragment_of_loadAll (anchored : s.Anchored) {table : SymbolTable} {module : LoadedModule}
    (h : Gives (loadAll table) s (.ok module) s') {fragment : LoadedFragment}
    (listed : module.fragments.get? name = some fragment) : s'.HasFragment name fragment := by
  obtain ⟨id, s₁, begun, later⟩ := bind_eq_ok_iff.1 h
  have begun := gives_ok_iff.2 begun
  have adds : Adds (fun _ => True) s s₁ := adds_of_loadModule begun
  obtain ⟨anchored₁, -⟩ := anchored.of_adds adds
  obtain ⟨e, made⟩ := loadModule_cases begun
  obtain rfl := Except.ok.inj e
  have top : ∃ outermost, s₁.Chain s.next [outermost] := by
    rw [made]
    refine ⟨_, .root (by rw [get?_insert, if_pos rfl]) ?_ ?_⟩ <;> rfl
  obtain ⟨fragments, loaded, rfl⟩ := bind_pure_eq_ok_iff.1 later
  have stored : ∀ pair ∈ fragments, s'.HasFragment pair.1 pair.2 := by
    refine forall_mem_of_mapM (fun s₁ => ∃ outermost, s₁.Chain s.next [outermost])
      (fun s₁ pair => s₁.HasFragment pair.1 pair.2) exists_chain_singleton_mono HasFragment.mono ?_
        ?_ anchored₁ top
      (gives_ok_iff.2 loaded)
    · rintro other s r s' anchored ⟨_, top⟩ h
      obtain ⟨r', read, -⟩ := gives_bind_pure_iff.1 h
      exact adds_of_loadFragmentWithClasses anchored top.hasModule read
    · intro other s pair s' anchored top h
      obtain ⟨e | fragment, read, made⟩ := gives_bind_pure_iff.1 h
      · cases made
      · obtain rfl := Except.ok.inj made
        exact hasFragment_of_loadFragmentWithClasses anchored top read
  exact stored (name, fragment) (OrderedMap.mem_of_get?_ofList listed)

/-! ## Paths -/

/-- What is found by its name has that name and its container from then on. -/
theorem Store.FirstNamed.exists_chain {candidates : List DeclId}
    (first : s.FirstNamed candidates name id) (read : s.ReadIn outer id) (wider : s.Extends t)
    {chain : List Declaration} (chained : t.Chain outer chain) :
    ∃ declaration, t.Chain id (chain ++ [declaration]) ∧ declaration.name = name := by
  obtain ⟨_, _, declaration, -, stored, rfl, -⟩ := first
  obtain ⟨declaration', stored', same⟩ := wider.kept stored
  obtain ⟨_, again, inside, -⟩ := read.mono wider
  obtain rfl := Option.some.inj (stored'.symm.trans again)
  exact ⟨declaration', .inner stored' inside chained,
    Declaration.congr_unread Declaration.name_unread same⟩

/-- A path leads from a declaration through declarations that it contains, one in the other, in any
store that has what is read on the way. -/
theorem PathLeads.exists_chain {candidates : List DeclId} {names : List String}
    (leads : PathLeads s candidates names id t) (traced : s.Traced)
    (listed : ∀ candidate ∈ candidates, s.ReadIn outer candidate) :
    t.Traced ∧ s.Extends t ∧ ∀ u, t.Extends u → ∀ chain, u.Chain outer chain →
      ∃ below, u.Chain id (chain ++ below) ∧ below.map (·.name) = names := by
  induction leads generalizing outer with
  | last first =>
    refine ⟨traced, .refl _, fun u wider chain chained => ?_⟩
    obtain ⟨declaration, chained', named⟩ := first.exists_chain (listed _ first.mem) wider chained
    exact ⟨[declaration], chained', by simp [named]⟩
  | @through s s₁ t candidates members name rest owner id first asked _ ih =>
    have read := listed owner first.mem
    obtain ⟨traced₁, wider₁, listed₁⟩ := traced.readIn_of_classMembers read asked
    obtain ⟨traced', wider', descend⟩ := ih traced₁ listed₁
    refine ⟨traced', wider₁.trans wider', fun u wider chain chained => ?_⟩
    obtain ⟨declaration, chained', named⟩ :=
      first.exists_chain read (wider₁.trans (wider'.trans wider)) chained
    obtain ⟨below, chained'', names⟩ := descend u wider _ chained'
    exact ⟨declaration :: below, by simpa using chained'', by simp [named, names]⟩

/-- Let a module be loaded, with operations before and afterwards, and let a path be found in one of
its package fragments. Then the containers of what is found lead up to that fragment, and through
declarations whose names are those of the path. -/
theorem findMemberPath_names {tables : SymbolTable → Prop} {table : SymbolTable}
    {module : LoadedModule} {s₀ s t u : Store} (before : ReflTransGen (Store.Step tables) .empty s₀)
    (loaded : loadAll table s₀ = .ok module s) (later : ReflTransGen (Store.Step tables) s t)
    {name : String} {fragment : LoadedFragment}
    (listed : module.fragments.get? name = some fragment) {path : String} {id : DeclId}
    (found : Gives (findMemberPath fragment path) t (.ok id) u) :
    ∃ outermost declaration below, u.Chain id (outermost :: declaration :: below) ∧
      declaration.id = fragment.id ∧
      declaration.name = name ∧ declaration.package?.isSome = true ∧
      below.map (·.name) = Text.dottedSegments path := by
  obtain ⟨traced₀, -⟩ := Traced.empty.of_steps before
  have load : Store.Step (fun _ => True) s₀ s := .all table (.ok module) trivial loaded
  obtain ⟨traced, -⟩ := traced₀.of_steps (.single load)
  obtain ⟨traced', wider⟩ := traced.of_steps later
  have stored := (hasFragment_of_loadAll traced₀.toAnchored loaded listed).mono wider
  obtain ⟨v, leads⟩ := exists_pathLeads (Text.dottedSegments_ne_nil path) found
  obtain ⟨tracedEnd, wider', descend⟩ := leads.exists_chain traced' stored.classes
  -- the members at the end of the path are read last
  obtain ⟨tracedLast, last⟩ : u.Traced ∧ v.Extends u := by
    obtain ⟨r, read, -⟩ := leads.gives_followPath_iff.1 found
    rcases membersIfClass_cases read with asked | ⟨-, rfl⟩
    · exact tracedEnd.of_steps
        (.single (.members id r asked) : ReflTransGen (Store.Step fun _ => True) v u)
    · exact ⟨tracedEnd, .refl u⟩
  obtain ⟨outermost, declaration, chained, named, package⟩ :=
    (stored.mono (wider'.trans last)).chain
  obtain ⟨below, chained', names⟩ := descend u last _ chained
  refine ⟨outermost, declaration, below, chained', ?_, named, package, names⟩
  obtain ⟨_, last, ends, own⟩ := chained.exists_concat
  obtain rfl : declaration = last := by simpa using congrArg List.getLast? ends
  exact tracedLast.keyed own

/-- The function of the class `Box<T>` has the id 5. The class, whose members were read before, and
the package fragment are around it. -/
theorem findMemberPath_names_of_box :
    let s := (Store.empty.after (loadAll boxModule)).after (classMembers ⟨3⟩)
    Gives (findMemberPath ⟨⟨2⟩, [⟨3⟩, ⟨4⟩]⟩ "Box.f") s (.ok ⟨5⟩) s ∧ ∃ outermost declaration below,
      s.Chain ⟨5⟩ (outermost :: declaration :: below) ∧ declaration.name = "p" ∧
      below.map (·.name) = ["Box", "f"] := by
  intro s
  obtain ⟨module, loaded, listed⟩ : ∃ module, loadAll boxModule .empty =
      .ok module (Store.empty.after (loadAll boxModule)) ∧
      module.fragments.get? "p" = some ⟨⟨2⟩, [⟨3⟩, ⟨4⟩]⟩ :=
    ⟨_, rfl, rfl⟩
  have later :
      ReflTransGen (Store.Step fun _ => True) (Store.empty.after (loadAll boxModule)) s := by
    obtain ⟨r, read⟩ :=
    Store.exists_gives_after (Store.empty.after (loadAll boxModule)) (classMembers ⟨3⟩)
    exact .single (.members ⟨3⟩ r read)
  have found : Gives (findMemberPath ⟨⟨2⟩, [⟨3⟩, ⟨4⟩]⟩ "Box.f") s (.ok ⟨5⟩) s := by rfl
  obtain ⟨outermost, declaration, below, chained, -, named, -, names⟩ :=
    findMemberPath_names .refl loaded later listed found
  exact ⟨found, outermost, declaration, below, chained, named, names⟩

end ClassSymbols
