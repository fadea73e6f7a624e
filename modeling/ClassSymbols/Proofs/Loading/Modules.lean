import ClassSymbols.Loading.Module
import ClassSymbols.Proofs.Loading.Records

/-!
# Loaded modules

A module that has just been loaded has its package fragments and their top-level classes, and no
members of them.

## Main definitions

* `Declaration.AtTop` — whether a declaration is a class that was read at the top level.
* `Store.Loaded` — stores with nothing but modules, package fragments and top-level classes.

## Main statements

* `loadModule_cases`, `loadFragment_cases`, `loadTopLevelClasses_cases` — what each step of loading
  stores.
* `loaded_of_loadAll` — the store of a module that has just been loaded.
-/

namespace ClassSymbols

/-- Whether a declaration is a class that was read at the top level of a package fragment with an id
below a bound. -/
def Declaration.AtTop (declaration : Declaration) (bound : DeclId) : Prop :=
  ∃ fragment names types path record, fragment.number < bound.number ∧
    Site.readClass ⟨.ofFragment fragment names types, path⟩ declaration.id record = .ok declaration

/-- Whether a declaration is neither a class nor a member that can override. -/
def Declaration.IsOther (declaration : Declaration) : Prop :=
  declaration.class? = none ∧ declaration.isCallable = false

/-- A store with nothing but modules, package fragments and top-level classes. -/
structure Store.Loaded (store : Store) : Prop extends store.Sound where
  valid : DeclId.invalid.number < store.next.number
  indexed : store.Indexed
  cases : ∀ {id declaration}, store.get? id = some declaration →
    declaration.IsOther ∨ declaration.AtTop store.next

variable {s s' : Store}

/-! ## Filling the store -/

namespace Store

theorem Loaded.empty : Store.empty.Loaded where
  toWellFormed := .empty
  listed_allocated known := nomatch known
  one_owner known := nomatch known
  valid := Nat.one_pos
  indexed _ _ found := nomatch found
  cases stored := nomatch stored

theorem Loaded.receive (h : s.Loaded) {next : DeclId} {declarations : List Declaration}
    (batch : s.Batch next declarations)
    (cases : ∀ declaration ∈ declarations, declaration.IsOther ∨ declaration.AtTop next) :
    (s.receive next declarations).Loaded where
  toSound := h.toSound.receive batch
  valid := by
    rw [next_receive]
    exact Nat.lt_of_lt_of_le h.valid batch.next_le
  indexed := batch.indexed h.toWellFormed h.indexed
  cases stored := by
    rw [next_receive]
    rcases get?_receive_cases stored with old | ⟨hd, -⟩
    · refine (h.cases old).imp_right ?_
      rintro ⟨fragment, names, types, path, record, below, read⟩
      exact ⟨fragment, names, types, path, record, Nat.lt_of_lt_of_le below batch.next_le, read⟩
    · exact cases _ hd

theorem Loaded.reserve_insert (h : s.Loaded) {declaration : Declaration}
    (own : declaration.id = s.next) (other : declaration.IsOther) :
    (s.reserve.insert declaration).Loaded :=
  h.receive (batch_singleton own (by simp [other.1])) fun _ hd =>
    .inl (List.mem_singleton.1 hd ▸ other)

theorem Loaded.get? (h : s.Loaded) {id : DeclId} {declaration : Declaration} {data : ClassData}
    (stored : s.get? id = some declaration) (hc : declaration.class? = some data) :
    declaration.AtTop s.next := by
  rcases h.cases stored with other | top
  · simp [other.1] at hc
  · exact top

theorem Loaded.unread (h : s.Loaded) {id : DeclId} {data : ClassData} (stored : s.IsClass id data) :
    ∃ reading, data.members = .deferred reading ∧ reading.loaded = none := by
  obtain ⟨declaration, stored, hc⟩ := stored
  obtain ⟨_, _, _, _, record, -, read⟩ := h.get? stored hc
  obtain ⟨data', context, hc', deferred⟩ := Site.exists_deferred_of_readClass read
  obtain rfl := Option.some.inj (hc.symm.trans hc')
  exact ⟨_, deferred, rfl⟩

theorem Loaded.members?_eq_none (h : s.Loaded) (id : DeclId) : s.members? id = none := by
  by_contra known
  obtain ⟨members, known⟩ := Option.ne_none_iff_exists'.1 known
  obtain ⟨data, stored, known⟩ := members?_eq_some_iff.1 known
  obtain ⟨reading, deferred, unread⟩ := h.unread stored
  simp [deferred, ClassMembers.known?, unread] at known

theorem Loaded.described (h : s.Loaded) : s.Described := by
  refine ⟨h.indexed, fun {id data} stored => ?_⟩
  obtain ⟨reading, deferred, unread⟩ := h.unread stored
  exact ⟨reading, deferred, fun members known => by simp [unread] at known⟩

end Store

/-! ## Loading -/

/-- A module is stored under the next id. -/
theorem loadModule_cases {table : SymbolTable} {r : Except SymbolError DeclId}
    (h : Gives (loadModule table) s r s') :
    r = .ok s.next ∧ s' = s.reserve.insert
      { id := s.next, name := table.module, container := none, kind := .module } :=
  gives_insert_iff.1 (gives_reserve_bind_iff.1 h)

/-- A package fragment is stored under the next id, or there is none. -/
theorem loadFragment_cases {table : SymbolTable} {module : DeclId} {name : String}
    {r : Except SymbolError DeclId} (h : Gives (loadFragment table module name) s r s') :
    (∃ e, r = .error e ∧ s' = s) ∨
      ∃ data, r = .ok s.next ∧ s' = s.reserve.insert
        { id := s.next, name, container := some module, kind := .package data } := by
  rcases gives_ofExcept_bind_iff.1 h with ⟨e, -, rfl, rfl⟩ | ⟨data, -, later⟩
  · exact .inl ⟨e, rfl, rfl⟩
  · exact .inr ⟨data, gives_insert_iff.1 (gives_reserve_bind_iff.1 later)⟩

/-- The top-level classes of a package fragment are read under the next ids and stored, all of them
or none. -/
theorem loadTopLevelClasses_cases {table : SymbolTable} {fragment : Declaration}
    {r : Except SymbolError (List DeclId)} (h : Gives (loadTopLevelClasses table fragment) s r s') :
    (∃ e m, r = .error e ∧ s.next.number ≤ m ∧ s' = s.upTo m) ∨
      ∃ data next ds, fragment.package? = some data ∧
      r = .ok (ds.map (·.id)) ∧ s.Batch next ds ∧ s' = s.receive next ds ∧
      ∀ declaration ∈ ds, ∃ path record,
        Site.readClass ⟨.ofFragment fragment.id data.names data.types, path⟩
        declaration.id record = .ok declaration := by
  unfold loadTopLevelClasses at h
  cases package : fragment.package? with
  | none =>
    rw [package] at h
    obtain ⟨rfl, rfl⟩ := gives_throw_iff.1 h
    exact .inl ⟨_, s'.next.number, rfl, Nat.le_refl _, rfl⟩
  | some data =>
    rw [package] at h
    rcases gives_ofExcept_bind_iff.1 (gives_get_bind_iff.1 h) with ⟨e, -, rfl, rfl⟩ |
      ⟨records, -, later⟩
    · exact .inl ⟨e, s'.next.number, rfl, Nat.le_refl _, rfl⟩
    let site := (ScopeContext.ofFragment fragment.id data.names data.types).site s
    have loads := @mapM_loads _ s _ _ (Site.loads_class site) records
    rcases loads.bind (n := s.next.number) later with ⟨e, m, rfl, -, le, rfl⟩ | ⟨ds, numbered, kept⟩
    · exact .inl ⟨e, m, rfl, le, rfl⟩
    obtain ⟨rfl, rfl⟩ := gives_insertAll_iff.1 kept
    have fresh :
        ∀ read ∈ records.map fun record id => site.readClass id record, Reader.Fresh read := by
      intro read hr
      obtain ⟨record, -, rfl⟩ := List.mem_map.1 hr
      exact Site.fresh_readClass record
    have batch := numbered.batch fresh (Nat.le_refl s.next.number) (Nat.le_refl _)
    refine .inr ⟨data, _, ds, rfl, rfl, batch, rfl, fun declaration hd => ?_⟩
    obtain ⟨read, hr, id, made⟩ := exists_mem_of_forall₂ numbered.forall₂ hd
    obtain ⟨record, -, rfl⟩ := List.mem_map.1 hr
    obtain ⟨rfl, -⟩ := Site.fresh_readClass record made
    exact ⟨site.path, record, made⟩

/-- The members of a class are asked for, or there is nothing to do. -/
theorem membersIfClass_cases {id : DeclId} {r : Except SymbolError (List DeclId)}
    (h : Gives (membersIfClass id) s r s') :
    Gives (classMembers id) s r s' ∨ r = .ok [] ∧ s' = s := by
  have h := gives_get_bind_iff.1 h
  split at h
  · exact .inl h
  · exact .inr (gives_pure_iff.1 h)

theorem Store.Loaded.loadFragment (h : s.Loaded) {table : SymbolTable} {module id : DeclId}
    {name : String} (ok : loadFragment table module name s = .ok id s') : s'.Loaded := by
  rcases loadFragment_cases (gives_ok_iff.2 ok) with ⟨_, e, -⟩ | ⟨data, -, rfl⟩
  · cases e
  · exact h.reserve_insert rfl ⟨rfl, rfl⟩

theorem Store.Loaded.loadTopLevelClasses (h : s.Loaded) {table : SymbolTable}
    {fragment : Declaration} (stored : s.get? fragment.id = some fragment) {classes : List DeclId}
    (ok : loadTopLevelClasses table fragment s = .ok classes s') : s'.Loaded := by
  rcases loadTopLevelClasses_cases (gives_ok_iff.2 ok) with ⟨_, _, e, -⟩ |
    ⟨data, next, ds, -, -, batch, rfl, read⟩
  · cases e
  · refine h.receive batch fun d hd => .inr ?_
    obtain ⟨path, record, made⟩ := read d hd
    exact ⟨fragment.id, data.names, data.types, path, record,
      Nat.lt_of_lt_of_le (h.allocated stored) batch.next_le, made⟩

theorem Store.Loaded.loadFragmentWithClasses (h : s.Loaded) {table : SymbolTable} {module : DeclId}
    {name : String} {fragment : LoadedFragment}
    (ok : loadFragmentWithClasses table module name s = .ok fragment s') : s'.Loaded := by
  obtain ⟨id, s₁, loaded, later⟩ := bind_eq_ok_iff.1 ok
  have h := h.loadFragment loaded
  obtain ⟨declaration, s₂, found, last⟩ := bind_eq_ok_iff.1 later
  obtain ⟨resolved, rfl⟩ := gives_reading_iff.1 (gives_ok_iff.2 found)
  have stored := Store.resolve_eq_ok_iff.1 resolved.symm
  obtain ⟨classes, read, -⟩ := bind_pure_eq_ok_iff.1 last
  obtain rfl := h.keyed stored
  exact h.loadTopLevelClasses stored read

theorem Store.Loaded.mapM {α β : Type} {step : α → StoreM β} (steps : ∀ {a b s s'}, s.Loaded →
    step a s = .ok b s' → s'.Loaded) (h : s.Loaded) {list : List α} {results : List β}
    (ok : list.mapM step s = .ok results s') : s'.Loaded := by
  induction list generalizing s results with
  | nil =>
    obtain ⟨-, rfl⟩ := gives_pure_iff.1 (gives_ok_iff.2 ok)
    exact h
  | cons a rest ih =>
    rw [List.mapM_cons] at ok
    obtain ⟨b, s₁, first, later⟩ := bind_eq_ok_iff.1 ok
    obtain ⟨bs, others, -⟩ := bind_pure_eq_ok_iff.1 later
    exact ih (steps h first) others

/-- A module that has just been loaded has nothing but package fragments and top-level classes. -/
theorem loaded_of_loadAll {table : SymbolTable} {module : LoadedModule} {store : Store}
    (ok : loadAll table .empty = .ok module store) : store.Loaded := by
  obtain ⟨id, s₁, loaded, later⟩ := bind_eq_ok_iff.1 ok
  obtain ⟨-, rfl⟩ := loadModule_cases (gives_ok_iff.2 loaded)
  obtain ⟨fragments, all, -⟩ := bind_pure_eq_ok_iff.1 later
  refine Store.Loaded.mapM (fun h ok => ?_) (Store.Loaded.empty.reserve_insert rfl ⟨rfl, rfl⟩) all
  obtain ⟨fragment, loaded, -⟩ := bind_pure_eq_ok_iff.1 ok
  exact h.loadFragmentWithClasses loaded

end ClassSymbols
