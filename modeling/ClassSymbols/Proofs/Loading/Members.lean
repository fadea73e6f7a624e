import ClassSymbols.Proofs.Data.Traversal
import ClassSymbols.Proofs.Loading.Numbering

/-!
# Reading the members of a class

Members that are known are the answer. Otherwise all records of the class are read under the next
ids, stored and noted, or none of them is; a failure only uses up ids.

## Main definitions

* `Site.readers` — the records of a class, as functions of the ids of their declarations.

## Main statements

* `classMembers_cases`, `classMembers_reads` — what asking for the members of a class gives and
  stores.
* `classMembers_wellFormed`, `classMembers_origin` — what it keeps of a well-formed store, and what
  it adds.
* `grows_of_classMembers` — asking for the members of a class keeps a store sound and lets it grow.
-/

namespace ClassSymbols

namespace Site

variable {site : Site} {base : Store}

/-! ## Readers -/

/-- A constructor record as a function of the id, in the class that contains the site. -/
def constructorReader (site : Site) (base : Store) (record : ConstructorRecord) : Reader :=
  fun id => do
  let (owner, data) ← site.ownerClass base
  site.readConstructor owner data id record

def readers (site : Site) (base : Store) (record : ClassRecord) : List Reader :=
  record.constructors.map (site.constructorReader base) ++
    record.functions.map (fun record id => site.readFunction id record) ++
    record.properties.map (fun record id => site.readProperty id record) ++
    record.nestedClasses.map (fun record id => site.readClass id record)

theorem gives_read_reserved {read : Reader} {s s' : Store} {r : Except SymbolError Declaration}
    (h : Gives (do StoreM.ofExcept (read (← StoreM.reserve))) s r s') :
    r = read s.next ∧ s' = s.reserve :=
  gives_ofExcept_iff.1 (gives_reserve_bind_iff.1 h)

theorem loads_of_reserve (read : Reader) :
    Loads base (do StoreM.ofExcept (read (← StoreM.reserve))) read := by
  intro n r s' h
  obtain ⟨rfl, rfl⟩ := gives_read_reserved h
  cases found : read ⟨n⟩ with
  | ok declaration => exact .inl ⟨declaration, found, rfl, rfl⟩
  | error e => exact .inr ⟨e, n + 1, found, rfl, by omega, rfl⟩

theorem loads_function (site : Site) (record : FunctionRecord) :
    Loads base (site.loadFunction record) fun id => site.readFunction id record :=
  loads_of_reserve fun id => site.readFunction id record

theorem loads_property (site : Site) (record : PropertyRecord) :
    Loads base (site.loadProperty record) fun id => site.readProperty id record :=
  loads_of_reserve fun id => site.readProperty id record

theorem loads_class (site : Site) (record : ClassRecord) :
    Loads base (site.loadClass record) fun id => site.readClass id record :=
  loads_of_reserve fun id => site.readClass id record

theorem loads_constructor (site : Site) (record : ConstructorRecord) :
    Loads base (site.loadConstructor record) (site.constructorReader base record) := by
  intro n r s' h
  rcases gives_reading_bind_iff.1 h with ⟨e, refused, rfl, rfl⟩ | ⟨⟨owner, data⟩, owned, later⟩
  · have refused : site.ownerClass base = .error e := refused
    exact .inr ⟨e, n, rfl, by simp [constructorReader, refused, Bind.bind, Except.bind],
      Nat.le_refl n, rfl⟩
  · have owned : site.ownerClass base = .ok (owner, data) := owned
    have read : site.constructorReader base record =
        fun id => site.readConstructor owner data id record := by
      funext id
      simp [constructorReader, owned, Bind.bind, Except.bind]
    rw [read]
    exact loads_of_reserve (fun id => site.readConstructor owner data id record) later

/-! ## What is read -/

theorem fresh_constructorReader (record : ConstructorRecord) :
    Reader.Fresh (site.constructorReader base record) := by
  intro id declaration h
  obtain ⟨⟨owner, data⟩, -, h⟩ := Except.bind_eq_ok_iff.1 h
  simp only [readConstructor, reporting, Except.mapError_eq_ok_iff, Except.bind_eq_ok_iff] at h
  obtain ⟨_, -, _, -, h⟩ := h
  obtain rfl := Except.ok.inj h
  exact ⟨rfl, rfl, fun _ h => by cases h⟩

theorem fresh_readFunction (record : FunctionRecord) :
    Reader.Fresh fun id => site.readFunction id record := by
  intro id declaration h
  simp only [readFunction, reporting, Except.mapError_eq_ok_iff, Except.bind_eq_ok_iff] at h
  obtain ⟨_, -, _, -, _, -, _, -, _, -, _, -, h⟩ := h
  obtain rfl := Except.ok.inj h
  exact ⟨rfl, rfl, fun _ h => by cases h⟩

theorem fresh_readProperty (record : PropertyRecord) :
    Reader.Fresh fun id => site.readProperty id record := by
  intro id declaration h
  simp only [readProperty, reporting, Except.mapError_eq_ok_iff, Except.bind_eq_ok_iff] at h
  obtain ⟨_, -, _, -, _, -, _, -, _, -, h⟩ := h
  obtain rfl := Except.ok.inj h
  exact ⟨rfl, rfl, fun _ h => by cases h⟩

theorem fresh_readClass (record : ClassRecord) :
    Reader.Fresh fun id => site.readClass id record := by
  intro id declaration h
  simp only [readClass, readClassData, reporting, Except.mapError_eq_ok_iff,
    Except.bind_eq_ok_iff] at h
  obtain ⟨_, -, data, ⟨_, -, _, -, made⟩, _, -, h⟩ := h
  obtain rfl := Except.ok.inj h
  obtain rfl := Except.ok.inj made
  refine ⟨rfl, rfl, fun data h => ?_⟩
  obtain rfl := Option.some.inj h
  rfl

theorem fresh_of_mem_readers {record : ClassRecord} {read : Reader}
    (h : read ∈ site.readers base record) : read.Fresh := by
  simp only [readers, List.mem_append, List.mem_map] at h
  rcases h with ((⟨_, -, rfl⟩ | ⟨_, -, rfl⟩) | ⟨_, -, rfl⟩) | ⟨_, -, rfl⟩
  · exact fresh_constructorReader _
  · exact fresh_readFunction _
  · exact fresh_readProperty _
  · exact fresh_readClass _

end Site

/-! ## Members of a class -/

variable {s s' : Store} {id : DeclId}

/-- The declarations of a class record have the next ids in their order, or the first record that
cannot be read stops it. -/
theorem readMembers_cases {record : ClassRecord} {context : ScopeContext}
    {r : Except SymbolError (List Declaration)} (h : Gives (readMembers record context) s r s') :
    (∃ ds, r = .ok ds ∧ Numbered s.next.number ((context.site s).readers s record) ds ∧
      s' = s.upTo (s.next.number + ds.length)) ∨
      ∃ e m, r = .error e ∧ readAll s.next.number ((context.site s).readers s record) = .error e ∧
        s.next.number ≤ m ∧ s' = s.upTo m := by
  have read := gives_get_bind_iff.1 h
  have constructors := @mapM_loads _ s _ _ (context.site s).loads_constructor record.constructors
  have functions := @mapM_loads _ s _ _ (context.site s).loads_function record.functions
  have properties := @mapM_loads _ s _ _ (context.site s).loads_property record.properties
  have classes := @mapM_loads _ s _ _ (context.site s).loads_class record.nestedClasses
  -- a failure in one kind of members is one in all of them
  simp only [Site.readers, readAll_append]
  rcases constructors.bind (n := s.next.number) read with ⟨e, m, rfl, refused, hm, rfl⟩ |
    ⟨cs, hc, read⟩
  · exact .inr ⟨e, m, rfl, by simp [refused, bind, Except.bind], hm, rfl⟩
  have hc' := numbered_iff.1 hc
  rcases functions.bind read with ⟨e, m, rfl, refused, hm, rfl⟩ | ⟨fs, hf, read⟩
  · exact .inr ⟨e, m, rfl, by simp [hc', refused, bind, Except.bind], by omega, rfl⟩
  have hf' := numbered_iff.1 hf
  rcases properties.bind read with ⟨e, m, rfl, refused, hm, rfl⟩ | ⟨ps, hp, read⟩
  · rw [Nat.add_assoc] at refused
    exact .inr ⟨e, m, rfl, by simp [hc', hf', refused, bind, Except.bind, pure, Except.pure],
      by omega, rfl⟩
  have hp' := numbered_iff.1 hp
  rw [Nat.add_assoc] at hp'
  rcases classes.bind read with ⟨e, m, rfl, refused, hm, rfl⟩ | ⟨ns, hn, read⟩
  · rw [Nat.add_assoc, Nat.add_assoc] at refused
    exact .inr ⟨e, m, rfl, by simp [hc', hf', hp', refused, bind, Except.bind, pure, Except.pure],
      by omega, rfl⟩
  obtain ⟨rfl, rfl⟩ := gives_pure_iff.1 read
  refine .inl ⟨_, rfl, ((hc.append hf).append ?_).append ?_, ?_⟩
  · simpa [Nat.add_assoc] using hp
  · simpa [Nat.add_assoc] using hn
  · simp [Nat.add_assoc]

theorem gives_loadMembers_cases {reading : LazyMembers} {r : Except SymbolError (List DeclId)}
    (allocated : id.number < s.next.number) (h : Gives (loadMembers id reading) s r s') :
    (∃ ds, r = .ok (ds.map (·.id)) ∧
      Numbered s.next.number ((reading.context.site s).readers s reading.record) ds ∧
      s' = (s.receive ⟨s.next.number + ds.length⟩ ds).setMembers id (ds.map (·.id))) ∨
      ∃ e m, r = .error e ∧
        readAll s.next.number ((reading.context.site s).readers s reading.record) = .error e ∧
        s.next.number ≤ m ∧ s' = s.upTo m := by
  rcases gives_bind_iff.1 h with ⟨e, rfl, failed⟩ | ⟨ds, s₁, read, h⟩
  · rcases readMembers_cases failed with ⟨_, contra, -, -⟩ | ⟨_, m, e', refused, hm, rfl⟩
    · cases contra
    · obtain rfl := Except.error.inj e'
      exact .inr ⟨e, m, rfl, refused, hm, rfl⟩
  rcases readMembers_cases read with ⟨_, e, numbered, rfl⟩ | ⟨_, _, contra, -, -, -⟩
  · obtain rfl := Except.ok.inj e
    rcases gives_bind_iff.1 h with ⟨_, -, failed⟩ | ⟨members, s₂, stored, h⟩
    · cases (gives_insertAll_iff.1 failed).1
    obtain ⟨e, rfl⟩ := gives_insertAll_iff.1 stored
    obtain rfl := Except.ok.inj e
    have batch : s.Batch ⟨s.next.number + ds.length⟩ ds :=
      numbered.batch (fun _ => Site.fresh_of_mem_readers) (Nat.le_refl _) (Nat.le_refl _)
    have outside : ((ds.map (·.id)).contains id) = false := by
      refine Bool.eq_false_iff.2 fun inside => ?_
      obtain ⟨d, hd, e⟩ := List.mem_map.1 (List.contains_iff_mem.1 inside)
      have := batch.new d hd
      rw [e] at this
      omega
    rw [outside] at h
    rcases gives_bind_iff.1 h with ⟨_, -, failed⟩ | ⟨_, s₃, noted, h⟩
    · cases (gives_modify_iff.1 failed).1
    obtain ⟨-, rfl⟩ := gives_modify_iff.1 noted
    obtain ⟨rfl, rfl⟩ := gives_pure_iff.1 h
    exact .inl ⟨ds, rfl, numbered, rfl⟩
  · cases contra

/-- Asking for the members of a class fails at once, gives members that are known, or reads them. -/
theorem classMembers_cases {r : Except SymbolError (List DeclId)}
    (h : Gives (classMembers id) s r s') :
    (∃ e, r = .error e ∧ s' = s) ∨
      (∃ members, r = .ok members ∧ s.members? id = some members ∧ s' = s) ∨
      ∃ declaration data reading, s.get? id = some declaration ∧
        declaration.kind = .classifier data ∧ data.members = .deferred reading ∧
        reading.loaded = none ∧ Gives (loadMembers id reading) s r s' := by
  rcases gives_reading_bind_iff.1 h with ⟨e, -, rfl, rfl⟩ | ⟨declaration, resolved, answer⟩
  · exact .inl ⟨e, rfl, rfl⟩
  have stored := Store.resolve_eq_ok_iff.1 resolved
  cases hk : declaration.kind with
  | classifier data =>
    have hc : declaration.class? = some data := by simp [Declaration.class?, hk]
    have known {members : List DeclId} (hm : data.members.known? = some members) :
        Store.members? _ id = some members :=
      Store.members?_eq_some_iff.2 ⟨data, ⟨declaration, stored, hc⟩, hm⟩
    cases hr : data.members with
    | eager members =>
      simp only [hc, hr] at answer
      obtain ⟨rfl, rfl⟩ := gives_pure_iff.1 answer
      exact .inr (.inl ⟨members, rfl, known (by simp [hr, ClassMembers.known?]), rfl⟩)
    | deferred reading =>
      cases hl : reading.loaded with
      | some members =>
        simp only [hc, hr, hl] at answer
        obtain ⟨rfl, rfl⟩ := gives_pure_iff.1 answer
        exact .inr (.inl ⟨members, rfl, known (by simp [hr, hl, ClassMembers.known?]), rfl⟩)
      | none =>
        simp only [hc, hr, hl] at answer
        exact .inr (.inr ⟨declaration, data, reading, stored, hk, hr, hl, answer⟩)
  | _ =>
    have hc : declaration.class? = none := by simp [Declaration.class?, hk]
    simp only [hc] at answer
    obtain ⟨rfl, rfl⟩ := gives_throw_iff.1 answer
    exact .inl ⟨_, rfl, rfl⟩

/-- Asking for the members of a class uses up ids at most, or stores the declarations of the class's
records and notes them. The members are known in either case. -/
theorem classMembers_reads (wf : s.WellFormed) {r : Except SymbolError (List DeclId)}
    (h : Gives (classMembers id) s r s') :
    (∃ m, s.Batch ⟨m⟩ [] ∧ s' = s.receive ⟨m⟩ [] ∧
      ∀ members, r = .ok members → s.members? id = some members) ∨
    ∃ declaration data reading ds, s.get? id = some declaration ∧
      declaration.kind = .classifier data ∧ data.members = .deferred reading ∧
      reading.loaded = none ∧
      r = .ok (ds.map (·.id)) ∧
      Numbered s.next.number ((reading.context.site s).readers s reading.record) ds ∧
      s.Batch ⟨s.next.number + ds.length⟩ ds ∧
      s' = (s.receive ⟨s.next.number + ds.length⟩ ds).setMembers id (ds.map (·.id)) := by
  rcases classMembers_cases h with
    ⟨e, rfl, rfl⟩ | ⟨members, rfl, known, rfl⟩ | ⟨declaration, data, reading, stored, hk, hr, hl, h⟩
  · exact .inl ⟨s'.next.number, Store.batch_nil (Nat.le_refl _), rfl, fun _ h => by cases h⟩
  · exact .inl ⟨s'.next.number, Store.batch_nil (Nat.le_refl _), rfl,
      fun _ h => Except.ok.inj h ▸ known⟩
  · rcases gives_loadMembers_cases (wf.allocated stored) h with
      ⟨ds, rfl, numbered, rfl⟩ | ⟨e, m, rfl, -, hm, rfl⟩
    · have batch : s.Batch ⟨s.next.number + ds.length⟩ ds :=
        numbered.batch (fun _ => Site.fresh_of_mem_readers) (Nat.le_refl _) (Nat.le_refl _)
      exact .inr ⟨declaration, data, reading, ds, stored, hk, hr, hl, rfl, numbered, batch, rfl⟩
    · exact .inl ⟨m, Store.batch_nil hm, rfl, fun _ h => by cases h⟩

/-- If the members of all classes are known, asking for them changes nothing. -/
theorem eq_of_classMembers_of_complete (complete : s.Complete)
    {r : Except SymbolError (List DeclId)} (h : Gives (classMembers id) s r s') : s' = s := by
  rcases classMembers_cases h with
    ⟨_, _, e⟩ | ⟨_, _, _, e⟩ | ⟨declaration, data, reading, stored, hk, hr, hl, -⟩
  · exact e
  · exact e
  · obtain ⟨_, known⟩ := complete id data ⟨declaration, stored, by simp [Declaration.class?, hk]⟩
    simp [hr, ClassMembers.known?, hl] at known

/-- Asking for the members of a class keeps a store well-formed and lets it evolve. The members are
known from then on. -/
theorem classMembers_wellFormed (wf : s.WellFormed) {r : Except SymbolError (List DeclId)}
    (h : Gives (classMembers id) s r s') :
    s'.WellFormed ∧ s.Evolves s' ∧ ∀ members, r = .ok members → s'.members? id = some members := by
  rcases classMembers_reads wf h with
    ⟨m, batch, rfl, known⟩ | ⟨declaration, data, reading, ds, stored, hk, hr, hl, rfl, -, batch,
      rfl⟩
  · have evolves := batch.evolves wf
    exact ⟨wf.receive batch, evolves, fun members e => evolves.listed (known members e)⟩
  have stored' := (batch.get?_receive_of_old (wf.allocated stored)).trans stored
  refine ⟨(wf.receive batch).setMembers stored' hk hr,
    (batch.evolves wf).setMembers stored' hk hr hl ?_,
    fun members e => ?_⟩
  · intro member hm
    obtain ⟨d, hd, rfl⟩ := List.mem_map.1 hm
    exact batch.new d hd
  · rw [Store.members?_setMembers stored' hk hr, if_pos rfl, Except.ok.inj e]

/-- Asking for the members of a class lets a store grow. -/
theorem grows_of_classMembers (wf : s.WellFormed) {r : Except SymbolError (List DeclId)}
    (h : Gives (classMembers id) s r s') : s.Grows s' := by
  refine (classMembers_wellFormed wf h).2.1.grows fun complete => ?_
  rw [eq_of_classMembers_of_complete complete h]
  exact ⟨complete, fun _ => rfl⟩

/-- What asking for the members of a class stores has been read, or was stored before. -/
theorem classMembers_origin (wf : s.WellFormed) {r : Except SymbolError (List DeclId)}
    (h : Gives (classMembers id) s r s') {other : DeclId} {d : Declaration}
    (stored : s'.get? other = some d) : d.origin = .deserialized ∨
      ∃ d', s.get? other = some d' ∧ d.unread = d'.unread := by
  have evolves := (classMembers_wellFormed wf h).2.1
  rcases classMembers_reads wf h with
    ⟨m, batch, rfl, -⟩ | ⟨declaration, data, reading, ds, old, hk, hr, -, -, numbered, batch, rfl⟩
  · rcases Store.get?_receive_cases stored with stored | ⟨hd, -⟩
    · exact .inr ⟨d, stored, rfl⟩
    · cases hd
  have old' := (batch.get?_receive_of_old (wf.allocated old)).trans old
  by_cases same : id = other
  · subst same
    obtain ⟨d', stored', e⟩ := evolves.kept old
    obtain rfl := Option.some.inj (stored.symm.trans stored')
    exact .inr ⟨declaration, old, e⟩
  rw [Store.get?_setMembers old' hk hr, if_neg same] at stored
  rcases Store.get?_receive_cases stored with stored | ⟨hd, -⟩
  · exact .inr ⟨d, stored, rfl⟩
  · obtain ⟨read, hm, id, made⟩ := exists_mem_of_forall₂ numbered.forall₂ hd
    exact .inl (Site.fresh_of_mem_readers hm made).2.1

/-- Asking for the members of a class keeps a store sound and lets it evolve. The members are known
from then on. -/
theorem classMembers_evolves (sound : s.Sound) {r : Except SymbolError (List DeclId)}
    (h : Gives (classMembers id) s r s') :
    s'.Sound ∧ s.Evolves s' ∧ ∀ members, r = .ok members → s'.members? id = some members := by
  obtain ⟨-, evolves, known⟩ := classMembers_wellFormed sound.toWellFormed h
  refine ⟨?_, evolves, known⟩
  rcases classMembers_reads sound.toWellFormed h with
    ⟨m, batch, rfl, -⟩ | ⟨declaration, data, reading, ds, stored, hk, hr, -, -, -, batch, rfl⟩
  · exact sound.receive batch
  have stored' := (batch.get?_receive_of_old (sound.allocated stored)).trans stored
  refine (sound.receive batch).setMembers stored' hk hr ?_ ?_
  · intro member hm
    obtain ⟨d, hd, rfl⟩ := List.mem_map.1 hm
    rw [Store.next_receive]
    exact batch.allocated d hd
  · intro other l known member hm hl
    obtain ⟨d, hd, rfl⟩ := List.mem_map.1 hm
    have old := sound.listed_allocated (batch.members?_receive_of_some known) _ hl
    have := batch.new d hd
    omega

end ClassSymbols
