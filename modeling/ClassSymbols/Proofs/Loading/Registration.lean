import ClassSymbols.Proofs.Loading.Modules
import ClassSymbols.Proofs.Table.Opening

/-!
# What loading a module registers

Loading a module stores the module, each package fragment and then the top-level classes of the
fragment, under consecutive ids. The classes of a fragment are stored together once all of them have
been read; the first class of the module that cannot be read stops the loading, and then no class of
its fragment is stored. The ids that were given out for the classes up to it stay unused.

## Main definitions

* `Store.Appends` — whether a store has further declarations under the next ids.
* `FragmentsRead` — what package fragments and their top-level classes are read as.
* `TableDump.LoadsAs`, `TableDump.StopsWith` — the two ways in which loading can end.

## Main statements

* `loadFragmentWithClasses_cases` — what loading one package fragment registers.
* `loadFragments_cases` — what loading package fragments in turn registers.
* `loadAll_registers_prefix` — what loading a module registers.
-/

namespace ClassSymbols

open Store

variable {s s' t u : Store}

/-! ## Further declarations -/

def Store.Allocated (s : Store) : Prop :=
  ∀ id declaration, s.get? id = some declaration → id.number < s.next.number

/-- Whether a store `t` is `s` with further declarations under the next ids, in their order, and
then gave out `unused` ids more. It knows the members of no more classes than `s`. -/
structure Store.Appends (s : Store) (declarations : List Declaration) (unused : Nat) (t : Store) :
    Prop where
  ids : declarations.map (·.id) = (List.range' s.next.number declarations.length).map DeclId.mk
  stored : ∀ declaration ∈ declarations, t.get? declaration.id = some declaration
  kept : ∀ id, id ∉ declarations.map (·.id) → t.get? id = s.get? id
  found : ∀ classId, t.findClass? classId =
    ((declarations.reverse.find? fun d => d.class?.any (·.classId = classId)).map (·.id)).or
      (s.findClass? classId)
  members : ∀ id, t.members? id = s.members? id
  next_eq : t.next.number = s.next.number + declarations.length + unused

namespace Store

variable {ds ds' : List Declaration} {unused : Nat}

/-- The last class of a class id that is stored is found. -/
theorem findClass?_insertAll_eq (s : Store) (ds : List Declaration) (classId : ClassId) :
    (s.insertAll ds).findClass? classId =
      ((ds.reverse.find? fun d => d.class?.any (·.classId = classId)).map (·.id)).or
        (s.findClass? classId) := by
  induction ds generalizing s with
  | nil => rfl
  | cons d rest ih =>
    have unfolded : s.insertAll (d :: rest) = (s.insert d).insertAll rest := rfl
    rw [unfolded, ih, findClass?_insert, List.reverse_cons, List.find?_append]
    cases rest.reverse.find? fun d => d.class?.any (·.classId = classId) with
    | some last => simp
    | none =>
      cases hc : d.class? with
      | none => simp [hc]
      | some data => by_cases same : data.classId = classId <;> simp [hc, same]

namespace Appends

theorem mem_ids_iff (h : s.Appends ds unused t) {id : DeclId} :
    id ∈ ds.map (·.id) ↔ s.next.number ≤ id.number ∧ id.number < s.next.number + ds.length := by
  rw [h.ids, List.mem_map]
  constructor
  · rintro ⟨number, hn, rfl⟩
    exact List.mem_range'_1.1 hn
  · intro bounds
    exact ⟨id.number, List.mem_range'_1.2 bounds, rfl⟩

theorem allocated (h : s.Appends ds unused t) (allocated : s.Allocated) : t.Allocated := by
  intro id declaration stored
  rw [h.next_eq]
  by_cases new : id ∈ ds.map (·.id)
  · have := (h.mem_ids_iff.1 new).2
    omega
  · have := allocated id declaration ((h.kept id new).symm.trans stored)
    omega

theorem trans (h : s.Appends ds 0 t) (h' : t.Appends ds' unused u) :
    s.Appends (ds ++ ds') unused u := by
  have next : t.next.number = s.next.number + ds.length := h.next_eq
  have apart {id : DeclId} (old : id ∈ ds.map (·.id)) : id ∉ ds'.map (·.id) := by
    intro new
    have := (h.mem_ids_iff.1 old).2
    have := (h'.mem_ids_iff.1 new).1
    omega
  constructor
  · rw [List.map_append, h.ids, h'.ids, next, ← List.map_append, List.length_append,
      List.range'_append_1]
  · intro declaration hd
    rcases List.mem_append.1 hd with hd | hd
    · rw [h'.kept _ (apart (List.mem_map_of_mem hd)), h.stored declaration hd]
    · exact h'.stored declaration hd
  · intro id other
    rw [List.map_append, List.mem_append, not_or] at other
    rw [h'.kept id other.2, h.kept id other.1]
  · intro classId
    rw [h'.found, h.found, List.reverse_append, List.find?_append]
    cases ds'.reverse.find? fun d => d.class?.any (·.classId = classId) <;> simp
  · intro id
    rw [h'.members, h.members]
  · rw [h'.next_eq, next, List.length_append]
    omega

/-- Unread declarations under the next ids are appended when they are stored. -/
theorem of_receive (allocated : s.Allocated)
    (ids : ds.map (·.id) = (List.range' s.next.number ds.length).map DeclId.mk)
    (unread : ∀ d ∈ ds, ∀ data, d.class? = some data → data.members.known? = none) :
    s.Appends ds unused (s.receive ⟨s.next.number + ds.length + unused⟩ ds) := by
  have nodup : (ds.map (·.id)).Nodup := by
    rw [ids]
    exact (List.nodup_range' _).map fun a b e => DeclId.mk.inj e
  have new : ∀ d ∈ ds, s.next.number ≤ d.id.number ∧ d.id.number < s.next.number + ds.length := by
    intro d hd
    have listed : d.id ∈ ds.map (·.id) := List.mem_map_of_mem hd
    rw [ids, List.mem_map] at listed
    obtain ⟨number, hn, e⟩ := listed
    rw [← e]
    exact List.mem_range'_1.1 hn
  have batch : s.Batch ⟨s.next.number + ds.length + unused⟩ ds := by
    refine ⟨?_, nodup, fun d hd => (new d hd).1, fun d hd => ?_, unread⟩
    · change s.next.number ≤ s.next.number + ds.length + unused
      omega
    · have := (new d hd).2
      change d.id.number < s.next.number + ds.length + unused
      omega
  have kept : ∀ id, id ∉ ds.map (·.id) →
      (s.receive ⟨s.next.number + ds.length + unused⟩ ds).get? id = s.get? id := by
    intro id other
    refine get?_insertAll_of_forall_ne fun d hd same => other ?_
    exact same ▸ List.mem_map_of_mem hd
  refine ⟨ids, fun d hd => batch.get?_receive_of_mem hd, kept, findClass?_insertAll_eq _ ds,
    fun id => ?_, ?_⟩
  · by_cases listed : id ∈ ds.map (·.id)
    · -- a new class has no members yet, and nothing was stored under its id before
      obtain ⟨d, hd, rfl⟩ := List.mem_map.1 listed
      have before : s.members? d.id = none := by
        cases old : s.get? d.id with
        | none => simp [members?, old]
        | some other =>
          have := allocated _ _ old
          have := (new d hd).1
          omega
      rw [before]
      cases hc : d.class? with
      | none => simp [members?, batch.get?_receive_of_mem hd, hc]
      | some data => simp [members?, batch.get?_receive_of_mem hd, hc, unread d hd data hc]
    · simp [members?, kept id listed]
  · rw [next_receive]

theorem singleton {declaration : Declaration} (allocated : s.Allocated)
    (own : declaration.id = s.next) (plain : declaration.class? = none) :
    s.Appends [declaration] 0 (s.reserve.insert declaration) :=
  of_receive allocated (by simp [own]) (by simp [plain])

theorem upTo (allocated : s.Allocated) (unused : Nat) :
    s.Appends [] unused (s.upTo (s.next.number + unused)) :=
  @of_receive s [] unused allocated rfl (by simp)

end Appends

end Store

/-! ## Classes -/

/-- Records that are each read under an id given out for it are read under consecutive ids. The
first one that cannot be read stops the reading, and has used up an id. -/
theorem gives_mapM_reserve_cases {α : Type} {read : α → Reader} {records : List α}
    {r : Except SymbolError (List Declaration)}
    (h : Gives (records.mapM fun record => do StoreM.ofExcept (read record (← StoreM.reserve))) s r
      s') :
    (∃ ds, r = .ok ds ∧ Numbered s.next.number (records.map read) ds ∧
      s' = s.upTo (s.next.number + ds.length)) ∨
      ∃ e readable broken rest ds, r = .error e ∧ records = readable ++ broken :: rest ∧
        Numbered s.next.number (readable.map read) ds ∧
        read broken ⟨s.next.number + readable.length⟩ = .error e ∧
        s' = s.upTo (s.next.number + (readable.length + 1)) := by
  induction records generalizing s r s' with
  | nil =>
    rw [List.mapM_nil, gives_pure_iff] at h
    obtain ⟨rfl, rfl⟩ := h
    exact .inl ⟨[], rfl, .nil _, rfl⟩
  | cons record rest ih =>
    rw [List.mapM_cons] at h
    rcases gives_bind_iff.1 h with ⟨e, rfl, failed⟩ | ⟨declaration, s₁, first, h⟩
    · obtain ⟨refused, rfl⟩ := Site.gives_read_reserved failed
      exact .inr ⟨e, [], record, rest, [], rfl, rfl, .nil _, refused.symm, rfl⟩
    · obtain ⟨made, rfl⟩ := Site.gives_read_reserved first
      have one : ∀ k, s.reserve.next.number + k = s.next.number + (k + 1) := by
        intro k
        change s.next.number + 1 + k = _
        omega
      rcases gives_bind_iff.1 h with ⟨e, rfl, failed⟩ | ⟨ds, s₂, others, h⟩
      · rcases ih failed with ⟨_, contra, -, -⟩ |
          ⟨e', readable, broken, after, ds, e'', rfl, read, refused, rfl⟩
        · cases contra
        · obtain rfl := Except.error.inj e''
          rw [one] at refused
          refine .inr ⟨e, record :: readable, broken, after, declaration :: ds, rfl, rfl,
            .cons made.symm read, refused, ?_⟩
          rw [one]
          rfl
      · rcases ih others with ⟨_, e', read, rfl⟩ | ⟨_, _, _, _, _, contra, -⟩
        · obtain rfl := Except.ok.inj e'
          obtain ⟨rfl, rfl⟩ := gives_pure_iff.1 h
          refine .inl ⟨_, rfl, .cons made.symm read, ?_⟩
          rw [one]
          rfl
        · cases contra

/-! ## Package fragments -/

namespace FragmentRecord

def declaration (record : FragmentRecord) (module id : DeclId) : Declaration where
  id := id
  name := record.name
  container := some module
  kind := .package {
    qualifiedName := record.name
    names := record.opened.names
    types := record.opened.types }

def classReader (record : FragmentRecord) (fragment : DeclId) (classRecord : ClassRecord) :
    Reader := fun id =>
  Site.readClass ⟨.ofFragment fragment record.opened.names record.opened.types, record.name⟩ id
    classRecord

theorem fresh_of_mem_map_classReader {record : FragmentRecord} {fragment : DeclId}
    {classes : List ClassRecord} {read : Reader}
    (h : read ∈ classes.map (record.classReader fragment)) : read.Fresh := by
  obtain ⟨classRecord, -, rfl⟩ := List.mem_map.1 h
  exact Site.fresh_readClass classRecord

end FragmentRecord

/-- Whether package fragments of `module`, each followed by its top-level classes, are read as some
declarations under consecutive ids from a number on. The last list has the ids of each fragment and
of its classes. -/
inductive FragmentsRead (module : DeclId) : Nat → List FragmentRecord → List Declaration →
    List (String × LoadedFragment) → Prop
  | nil (n : Nat) : FragmentsRead module n [] [] []
  | cons {n : Nat} {record : FragmentRecord} {records : List FragmentRecord}
      {classes ds : List Declaration} {loaded : List (String × LoadedFragment)} :
      Numbered (n + 1) (record.classes.map (record.classReader ⟨n⟩)) classes →
      FragmentsRead module (n + 1 + classes.length) records ds loaded →
      FragmentsRead module n (record :: records) (record.declaration module ⟨n⟩ :: classes ++ ds)
        ((record.name, ⟨⟨n⟩, classes.map (·.id)⟩) :: loaded)

theorem FragmentsRead.map_fst_eq {module : DeclId} {n : Nat} {records : List FragmentRecord}
    {ds : List Declaration} {loaded : List (String × LoadedFragment)}
    (h : FragmentsRead module n records ds loaded) :
    loaded.map Prod.fst = records.map (·.name) := by
  induction h with
  | nil => rfl
  | cons _ _ ih => rw [List.map_cons, List.map_cons, ih]

/-- Whether, of a package fragment that is stored under the id `n`, the class `broken` cannot be
read for the reason `e`, and all classes before it can, which are `readable` in number. -/
def FragmentRecord.BreaksAt (record : FragmentRecord) (n readable : Nat) (e : SymbolError) : Prop :=
  ∃ before broken after classes,
    record.classes = before ++ broken :: after ∧ before.length = readable ∧
    Numbered (n + 1) (before.map (record.classReader ⟨n⟩)) classes ∧
    record.classReader ⟨n⟩ broken ⟨n + 1 + readable⟩ = .error e

section Loading

variable {table : SymbolTable} {module : DeclId} {record : FragmentRecord}
  (opened : table.fragment record.name = .ok record.opened)
include opened

theorem readFragment_eq : readFragment table record.name =
    .ok
      { qualifiedName := record.name, names := record.opened.names,
        types := record.opened.types } := by
  simp [readFragment, SymbolTable.nameTable, SymbolTable.packageTypes, opened, Except.map,
    Except.mapError, bind, Except.bind, pure, Except.pure]

/-- A package fragment is stored under the next id. -/
theorem loadFragment_eq : loadFragment table module record.name s =
    .ok s.next (s.reserve.insert (record.declaration module s.next)) := by
  have h : Gives (loadFragment table module record.name) s (.ok s.next)
      (s.reserve.insert (record.declaration module s.next)) := by
    refine gives_ofExcept_bind_iff.2 (.inr ⟨_, readFragment_eq opened, ?_⟩)
    exact gives_reserve_bind_iff.2 (gives_insert_iff.2 ⟨rfl, rfl⟩)
  exact gives_ok_iff.1 h

/-- The top-level classes of a package fragment are read under the next ids and stored, or the first
one that cannot be read stops the loading before any is stored. -/
theorem loadTopLevelClasses_registers {id : DeclId}
    (stored : s.get? id = some (record.declaration module id))
    {r : Except SymbolError (List DeclId)}
    (h : Gives (loadTopLevelClasses table (record.declaration module id)) s r s') :
    (∃ classes, r = .ok (classes.map (·.id)) ∧
      Numbered s.next.number (record.classes.map (record.classReader id)) classes ∧
      s' = s.receive ⟨s.next.number + classes.length⟩ classes) ∨
    ∃ e before broken after classes, r = .error e ∧ record.classes = before ++ broken :: after ∧
      Numbered s.next.number (before.map (record.classReader id)) classes ∧
      record.classReader id broken ⟨s.next.number + before.length⟩ = .error e ∧
      s' = s.upTo (s.next.number + (before.length + 1)) := by
  have path : (ScopeContext.ofFragment id record.opened.names record.opened.types).path s =
      record.name := by
    simp [ScopeContext.path, ScopeContext.ofFragment, stored, Text.dotted, List.intercalate,
      FragmentRecord.declaration]
  have classes : table.classes record.name = .ok record.classes := by
    rw [SymbolTable.classes, opened]
    rfl
  have h := gives_get_bind_iff.1 h
  rcases gives_ofExcept_bind_iff.1 h with ⟨e, refused, -⟩ | ⟨records, listed, h⟩
  · simp [classes, Except.mapError] at refused
  obtain rfl : record.classes = records := by
    simpa [FragmentRecord.declaration, classes, Except.mapError] using listed
  have site : (ScopeContext.ofFragment id record.opened.names record.opened.types).site s =
      ⟨.ofFragment id record.opened.names record.opened.types, record.name⟩ :=
    congrArg (Site.mk _) path
  have reads {r : Except SymbolError (List Declaration)} {s' : Store}
    (h : Gives (record.classes.mapM
      ((ScopeContext.ofFragment id record.opened.names record.opened.types).site s).loadClass) s r
        s') :=
    @gives_mapM_reserve_cases s s' _ (record.classReader id) _ _ (site ▸ h)
  rcases gives_bind_iff.1 h with ⟨e, rfl, failed⟩ | ⟨ds, s₁, read, h⟩
  · rcases reads failed with ⟨_, contra, -, -⟩ |
      ⟨e', before, broken, after, ds, e'', split, read, refused, rfl⟩
    · cases contra
    · obtain rfl := Except.error.inj e''
      exact .inr ⟨e, before, broken, after, ds, rfl, split, read, refused, rfl⟩
  · rcases reads read with ⟨_, e, numbered, rfl⟩ | ⟨_, _, _, _, _, contra, -⟩
    · obtain rfl := Except.ok.inj e
      obtain ⟨rfl, rfl⟩ := gives_insertAll_iff.1 h
      exact .inl ⟨ds, rfl, numbered, rfl⟩
    · cases contra

/-- A package fragment is stored with all its top-level classes, or alone. -/
theorem loadFragmentWithClasses_cases (allocated : s.Allocated)
    {r : Except SymbolError LoadedFragment}
    (h : Gives (loadFragmentWithClasses table module record.name) s r s') :
    (∃ classes, r = .ok ⟨s.next, classes.map (·.id)⟩ ∧
      Numbered (s.next.number + 1) (record.classes.map (record.classReader s.next)) classes ∧
      s.Appends (record.declaration module s.next :: classes) 0 s') ∨
    ∃ e readable, r = .error e ∧ record.BreaksAt s.next.number readable e ∧
      s.Appends [record.declaration module s.next] (readable + 1) s' := by
  -- the fragment is there once it has been loaded
  have first : s.Appends [record.declaration module s.next] 0
      (s.reserve.insert (record.declaration module s.next)) := .singleton allocated rfl rfl
  have stored := first.stored _ List.mem_cons_self
  have allocated₁ := first.allocated allocated
  rcases gives_bind_iff.1 h with ⟨e, -, failed⟩ | ⟨id, s₁, loaded, h⟩
  · cases (loadFragment_eq opened).symm.trans (gives_error_iff.1 failed)
  obtain ⟨rfl, rfl⟩ :=
    EStateM.Result.ok.inj ((loadFragment_eq opened).symm.trans (gives_ok_iff.1 loaded))
  rcases gives_reading_bind_iff.1 h with ⟨e, missing, -⟩ | ⟨declaration, resolved, h⟩
  · cases (resolve_eq_ok_iff.2 stored).symm.trans missing
  obtain rfl := Except.ok.inj ((resolve_eq_ok_iff.2 stored).symm.trans resolved)
  -- what comes of the classes is what comes of the fragment with them
  rcases gives_bind_iff.1 h with ⟨e, rfl, failed⟩ | ⟨ids, s₂, read, h⟩
  · rcases loadTopLevelClasses_registers opened stored failed with
      ⟨_, contra, -⟩ | ⟨_, before, broken, after, classes, e', split, read, refused, rfl⟩
    · cases contra
    · obtain rfl := Except.error.inj e'
      exact .inr ⟨e, before.length, rfl,
        ⟨before, broken, after, classes, split, rfl, read, refused⟩,
        first.trans (.upTo allocated₁ _)⟩
  · rcases loadTopLevelClasses_registers opened stored read with
      ⟨classes, e, numbered, rfl⟩ | ⟨_, _, _, _, _, contra, -⟩
    · obtain rfl := Except.ok.inj e
      obtain ⟨rfl, rfl⟩ := gives_pure_iff.1 h
      have fresh : ∀ read ∈ record.classes.map (record.classReader s.next), Reader.Fresh read :=
        fun _ => FragmentRecord.fresh_of_mem_map_classReader
      have batch :=
        @Numbered.batch (s.reserve.insert (record.declaration module s.next)) _ _ _ numbered fresh
        (Nat.le_refl _) _ (Nat.le_refl _)
      have others := @Appends.of_receive _ _ 0 allocated₁ (numbered.map_id_eq fresh) batch.unread
      exact .inl ⟨classes, rfl, numbered, first.trans others⟩
    · cases contra

end Loading

/-- Package fragments are loaded in turn, up to the first one with a class that cannot be read. -/
theorem loadFragments_cases {table : SymbolTable} {module : DeclId} {records : List FragmentRecord}
    (opened : ∀ record ∈ records, table.fragment record.name = .ok record.opened)
    (allocated : s.Allocated) {r : Except SymbolError (List (String × LoadedFragment))}
    (h : Gives ((records.map (·.name)).mapM fun name =>
      do return (name, ← loadFragmentWithClasses table module name)) s r s') :
    (∃ loaded ds, r = .ok loaded ∧ FragmentsRead module s.next.number records ds loaded ∧
      s.Appends ds 0 s') ∨
    ∃ e before record after ds loaded readable, r = .error e ∧ records = before ++ record :: after ∧
      FragmentsRead module s.next.number before ds loaded ∧
      record.BreaksAt (s.next.number + ds.length) readable e ∧
      s.Appends (ds ++ [record.declaration module ⟨s.next.number + ds.length⟩])
        (readable + 1) s' := by
  induction records generalizing s r s' with
  | nil =>
    obtain ⟨rfl, rfl⟩ := gives_pure_iff.1 h
    exact .inl ⟨[], [], rfl, .nil _, .upTo allocated 0⟩
  | cons record rest ih =>
    have here := opened record List.mem_cons_self
    have later : ∀ record ∈ rest, table.fragment record.name = .ok record.opened :=
      fun other ho => opened other (List.mem_cons_of_mem _ ho)
    rw [List.map_cons, List.mapM_cons] at h
    rcases gives_bind_iff.1 h with ⟨e, rfl, failed⟩ | ⟨entry, s₁, first, h⟩
    · obtain ⟨r, failed, e'⟩ := gives_bind_pure_iff.1 failed
      rcases loadFragmentWithClasses_cases here allocated failed with
        ⟨_, rfl, -⟩ | ⟨_, readable, rfl, breaks, appends⟩
      · cases e'
      · obtain rfl := Except.error.inj e'
        exact .inr ⟨e, [], record, rest, [], [], readable, rfl, rfl, .nil _, breaks, appends⟩
    obtain ⟨r, loaded, e⟩ := gives_bind_pure_iff.1 first
    rcases loadFragmentWithClasses_cases here allocated loaded with
      ⟨classes, rfl, read, appends⟩ | ⟨_, _, rfl, -⟩
    swap
    · cases e
    obtain rfl := Except.ok.inj e
    have next : s₁.next.number = s.next.number + 1 + classes.length := by
      rw [appends.next_eq, List.length_cons]
      omega
    have ih {r : Except SymbolError (List (String × LoadedFragment))} {s' : Store} :=
      @ih s₁ s' later (appends.allocated allocated) r
    rcases gives_bind_iff.1 h with ⟨e, rfl, failed⟩ | ⟨others, s₂, all, h⟩
    · rcases ih failed with
        ⟨_, _, contra, -⟩ | ⟨_, before, broken, after, ds, others, readable, e', rfl, reads, breaks,
          rest⟩
      · cases contra
      · obtain rfl := Except.error.inj e'
        have place : s₁.next.number + ds.length =
            s.next.number + (record.declaration module s.next :: classes ++ ds).length := by
          rw [next, List.length_append, List.length_cons]
          omega
        rw [place] at breaks rest
        refine .inr ⟨e, record :: before, broken, after, _, _, readable, rfl, rfl,
          .cons read (next ▸ reads), breaks,
          ?_⟩
        rw [List.append_assoc]
        exact appends.trans rest
    · rcases ih all with ⟨_, ds, e, reads, rest⟩ | ⟨_, _, _, _, _, _, _, contra, -⟩
      · obtain rfl := Except.ok.inj e
        obtain ⟨rfl, rfl⟩ := gives_pure_iff.1 h
        exact .inl ⟨_, _, rfl, .cons read (next ▸ reads), appends.trans rest⟩
      · cases contra

/-! ## Modules -/

namespace TableDump

def declaration (dump : TableDump) (id : DeclId) : Declaration where
  id := id
  name := dump.module
  container := none
  kind := .module

/-- Whether a store `s` becomes `s'` with a whole module: with the module, and then each package
fragment with all its top-level classes. The ids of all of them are listed. -/
def LoadsAs (dump : TableDump) (s : Store) (loaded : LoadedModule) (s' : Store) : Prop :=
  ∃ ds, loaded.module = s.next ∧
    FragmentsRead s.next (s.next.number + 1) dump.fragments ds loaded.fragments.entries ∧
    s.Appends (dump.declaration s.next :: ds) 0 s'

/-- Whether a store `s` becomes `s'` because a class cannot be read for the reason `e`: with the
module, the package fragments before that of the class with all their top-level classes, and the
fragment of the class without any. An id has been used up for each class of the fragment up to the
one that cannot be read. -/
def StopsWith (dump : TableDump) (s : Store) (e : SymbolError) (s' : Store) : Prop :=
  ∃ before record after ds loaded readable, dump.fragments = before ++ record :: after ∧
    FragmentsRead s.next (s.next.number + 1) before ds loaded ∧
    record.BreaksAt (s.next.number + 1 + ds.length) readable e ∧
    s.Appends (dump.declaration s.next :: ds ++
      [record.declaration s.next ⟨s.next.number + 1 + ds.length⟩])
      (readable + 1) s'

end TableDump

/-- Let a table be opened, and let all ids in a store have been given out. Loading the module
registers it as a whole, or exactly up to the package fragment with the first class that cannot be
read, without that fragment's classes. -/
theorem loadAll_registers_prefix {dump : TableDump} {table : SymbolTable}
    (opened : SymbolTable.ofDump dump = .ok table) {s : Store} (allocated : s.Allocated) :
    match loadAll table s with
    | .error e s' => dump.StopsWith s e s'
    | .ok loaded s' => dump.LoadsAs s loaded s' := by
  have module := SymbolTable.module_of_ofDump opened
  have names := SymbolTable.fragmentNames_of_ofDump opened
  have fragments : ∀ record ∈ dump.fragments, table.fragment record.name = .ok record.opened :=
    fun _ => SymbolTable.fragment_of_ofDump opened
  have first : s.Appends [dump.declaration s.next] 0 (s.reserve.insert (dump.declaration s.next)) :=
    .singleton allocated rfl rfl
  have loads :
      Gives (loadModule table) s (.ok s.next) (s.reserve.insert (dump.declaration s.next)) := by
    refine gives_reserve_bind_iff.2 (gives_insert_iff.2 ⟨rfl, ?_⟩)
    rw [module]
    rfl
  have reads {r : Except SymbolError (List (String × LoadedFragment))} {s' : Store} :=
    @loadFragments_cases _ s' table s.next _ fragments (first.allocated allocated) r
  have unfolded : loadAll table = (do
      let module ← loadModule table
      let fragments ← (dump.fragments.map (·.name)).mapM fun name => do
        return (name, ← loadFragmentWithClasses table module name)
      return { module, fragments := .ofList fragments }) := by
    rw [← names]
    rfl
  obtain ⟨r, s', h⟩ := exists_gives (loadAll table) s
  have answer := h
  rw [unfolded] at answer
  rcases gives_bind_iff.1 answer with ⟨e, -, failed⟩ | ⟨id, s₁, loaded, answer⟩
  · cases (failed.unique loads).1
  obtain ⟨e, rfl⟩ := loaded.unique loads
  obtain rfl := Except.ok.inj e
  rcases gives_bind_iff.1 answer with ⟨e, rfl, failed⟩ | ⟨fragments, s₂, all, answer⟩
  · rw [gives_error_iff.1 h]
    rcases reads failed with
      ⟨_, _, contra, -⟩ | ⟨_, before, record, after, ds, loaded, readable, e', split, read, breaks,
        appends⟩
    · cases contra
    · obtain rfl := Except.error.inj e'
      exact ⟨before, record, after, ds, loaded, readable, split, read, breaks, first.trans appends⟩
  · rcases reads all with ⟨_, ds, e, read, appends⟩ | ⟨_, _, _, _, _, _, _, contra, -⟩
    · obtain rfl := Except.ok.inj e
      obtain ⟨rfl, rfl⟩ := gives_pure_iff.1 answer
      rw [gives_ok_iff.1 h]
      refine ⟨ds, rfl, ?_, first.trans appends⟩
      -- the fragments have different names, so that each of them keeps its entry
      rw [OrderedMap.entries_ofList (read.map_fst_eq ▸ SymbolTable.nodup_names_of_ofDump opened)]
      exact read
    · cases contra

/-- A module with a package fragment `p`, which has a class `A`, and a package fragment `q`, of
which the first class can be read and the second one has no name. -/
def namelessClassDump : TableDump where
  module := "m"
  fragments := [
    { name := "p", strings := ["A"], qualifiedNames := [{ shortName := 0, kind := .classifier }]
      classes := [{ qualifiedName := 0 }] },
    { name := "q", strings := ["B"], qualifiedNames := [{ shortName := 0, kind := .classifier }]
      classes := [{ qualifiedName := 0 }, { qualifiedName := 7 }] }]

/-- The module has the id 1, `p` and its class 2 and 3, and `q` the id 4. The ids 5 and 6 stay
unused. -/
theorem loadAll_registers_prefix_of_namelessClassDump : ∃ table e s',
    SymbolTable.ofDump namelessClassDump = .ok table ∧ Store.empty.Allocated ∧
    loadAll table .empty = .error e s' ∧ namelessClassDump.StopsWith .empty e s' ∧
    s'.next = ⟨7⟩ ∧ (s'.get? ⟨4⟩).map (·.name) = some "q" ∧ s'.get? ⟨5⟩ = none := by
  have allocated : Store.empty.Allocated := fun _ _ => WellFormed.empty.allocated
  obtain ⟨table, opened, e, s', failed, next, fragment, free⟩ : ∃ table,
      SymbolTable.ofDump namelessClassDump = .ok table ∧
      ∃ e s', loadAll table .empty = .error e s' ∧
        s'.next = ⟨7⟩ ∧ (s'.get? ⟨4⟩).map (·.name) = some "q" ∧ s'.get? ⟨5⟩ = none :=
    ⟨_, rfl, _, _, rfl, rfl, rfl, rfl⟩
  have stops := loadAll_registers_prefix opened allocated
  rw [failed] at stops
  exact ⟨table, e, s', opened, allocated, failed, stops, next, fragment, free⟩

end ClassSymbols
