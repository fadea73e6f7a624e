import ClassSymbols.Proofs.Loading.Additions
import ClassSymbols.Proofs.Loading.Modules

/-!
# Loading adds declarations

A module is loaded one declaration after the other, the members of a class all at once, and a local
declaration alone. Each of these operations is a sequence of additions, and so is a path through
members. What they add before they fail stays.

## Main definitions

* `LocalRecord.reader` — the record of a local declaration, as a function of the id.
* `Store.Loading` — one operation that loads something.

## Main statements

* `adds_of_classMembers`, `adds_of_findMemberPath`, `adds_of_loadAll`, `adds_of_resolveLocal` — what
  each operation adds.
* `Store.Anchored.adds_of_loading`, `Store.Rooted.of_loading` — loading is a sequence of additions,
  and keeps a store rooted.
-/

namespace ClassSymbols

open Relation Store

variable {s s' : Store} {α β : Type} {locals : PropertyRecord → Prop}

/-! ## Sequences -/

theorem adds_upTo {m : Nat} (le : s.next.number ≤ m) : Adds locals s (s.upTo m) :=
  .receive (batch_nil le) (by simp)

/-- A sequence adds what its parts add. -/
theorem adds_of_bind {x : StoreM α} {f : α → StoreM β} {r : Except SymbolError β}
    (anchored : s.Anchored) (h : Gives (x >>= f) s r s')
    (first : ∀ {r s₁}, Gives x s r s₁ → ReflTransGen (Adds locals) s s₁)
    (later : ∀ {a s₁}, s₁.Anchored → s.Extends s₁ → Gives x s (.ok a) s₁ → Gives (f a) s₁ r s' →
      ReflTransGen (Adds locals) s₁ s') : ReflTransGen (Adds locals) s s' := by
  rcases gives_bind_iff.1 h with ⟨e, -, failed⟩ | ⟨a, s₁, begun, rest⟩
  · exact first failed
  · obtain ⟨anchored', wider⟩ := anchored.of_additions (first begun)
    exact (first begun).trans (later anchored' wider begun rest)

/-- A traversal adds what its steps add, if they can rely on what additions do not change. -/
theorem adds_of_mapM {step : α → StoreM β} {P : Store → Prop}
    (steady : ∀ {s t : Store}, s.Extends t → P s → P t)
    (steps : ∀ {a s r s'}, s.Anchored → P s → Gives (step a) s r s' →
      ReflTransGen (Adds locals) s s')
    (anchored : s.Anchored) (holds : P s) {list : List α} {r : Except SymbolError (List β)}
    (h : Gives (list.mapM step) s r s') :
    ReflTransGen (Adds locals) s s' := by
  induction list generalizing s s' r with
  | nil =>
    obtain ⟨-, rfl⟩ := gives_pure_iff.1 h
    exact .refl
  | cons a rest ih =>
    rw [List.mapM_cons] at h
    refine adds_of_bind anchored h (steps anchored holds) fun anchored' wider _ later => ?_
    refine adds_of_bind anchored' later (ih anchored' (steady wider holds)) fun _ _ _ done => ?_
    obtain ⟨-, rfl⟩ := gives_pure_iff.1 done
    exact .refl

/-- The results of a traversal have a property that each of them has when it is there, if additions
do not change it. -/
theorem forall_mem_of_mapM {step : α → StoreM β} (P : Store → Prop) (Q : Store → β → Prop)
    (steady : ∀ {s t : Store}, s.Extends t → P s → P t)
    (steady' : ∀ {s t : Store} {b : β}, s.Extends t → Q s b → Q t b)
    (adds : ∀ {a s r s'}, s.Anchored → P s → Gives (step a) s r s' →
      ReflTransGen (Adds fun _ => True) s s')
    (steps : ∀ {a s b s'}, s.Anchored → P s → Gives (step a) s (.ok b) s' → Q s' b)
    (anchored : s.Anchored) (holds : P s) {list : List α} {results : List β}
    (h : Gives (list.mapM step) s (.ok results) s') : ∀ b ∈ results, Q s' b := by
  induction list generalizing s results with
  | nil =>
    obtain ⟨e, -⟩ := gives_pure_iff.1 h
    obtain rfl := Except.ok.inj e
    exact fun _ hb => nomatch hb
  | cons a rest ih =>
    rw [List.mapM_cons] at h
    obtain ⟨b, s₁, first, later⟩ := bind_eq_ok_iff.1 h
    obtain ⟨bs, others, rfl⟩ := bind_pure_eq_ok_iff.1 later
    obtain ⟨anchored', wider⟩ := anchored.of_additions (adds anchored holds (gives_ok_iff.2 first))
    have holds' := steady wider holds
    obtain ⟨-, wider'⟩ :=
      anchored'.of_additions (adds_of_mapM steady adds anchored' holds' (gives_ok_iff.2 others))
    intro other ho
    rcases List.mem_cons.1 ho with rfl | ho
    · exact steady' wider' (steps anchored holds (gives_ok_iff.2 first))
    · exact ih anchored' holds' (gives_ok_iff.2 others) other ho

/-! ## Members -/

/-- The members of a class are stored and noted, all of them or none. -/
theorem adds_of_classMembers (anchored : s.Anchored) {id : DeclId}
    {r : Except SymbolError (List DeclId)} (h : Gives (classMembers id) s r s') :
    ReflTransGen (Adds locals) s s' := by
  rcases classMembers_reads anchored.toWellFormed h with
    ⟨m, batch, rfl, -⟩ | ⟨declaration, data, reading, ds, stored, hk, hr, hl, rfl, numbered, batch,
      rfl⟩
  · exact .single (adds_upTo batch.next_le)
  have isClass : s.IsClass id data := ⟨declaration, stored, by simp [Declaration.class?, hk]⟩
  have inside := anchored.inside isClass hr
  have read := numbered.reads
  have admits : ∀ d ∈ ds, s.Admits locals d := by
    intro d hd
    obtain ⟨record, -, made⟩ := exists_mem_of_forall₂ read hd
    exact .read reading.context ((inside.owner_eq anchored.keyed).symm ▸ inside) (.member made)
  have stored' := (batch.get?_receive_of_old (anchored.allocated stored)).trans stored
  refine .tail (.single (.receive batch admits)) (.note stored' hk hr hl ?_)
  rw [List.forall₂_map_right_iff]
  have listed := (List.forall₂_and_left ds _).2 ⟨fun _ hd => hd, read.flip⟩
  refine List.Forall₂.flip (listed.imp ?_)
  rintro d record ⟨hd, made⟩
  refine ⟨s, reading.context.path s, d, anchored.toWellFormed,
    batch.toExtends anchored.toWellFormed, batch.get?_receive_of_mem hd, ?_⟩
  rw [Declaration.unread_of_unknown (batch.unread d hd)]
  exact made

theorem adds_of_membersIfClass (anchored : s.Anchored) {id : DeclId}
    {r : Except SymbolError (List DeclId)} (h : Gives (membersIfClass id) s r s') :
    ReflTransGen (Adds locals) s s' := by
  rcases membersIfClass_cases h with asked | ⟨-, rfl⟩
  · exact adds_of_classMembers anchored asked
  · exact .refl

/-- A path through members reads the members of the classes on it. -/
theorem adds_of_followPath (anchored : s.Anchored) {path : String} {found : DeclId}
    {candidates : List DeclId} {names : List String} {r : Except SymbolError DeclId}
    (h : Gives (followPath path found candidates names) s r s') :
    ReflTransGen (Adds locals) s s' := by
  induction names generalizing s found candidates with
  | nil =>
    obtain ⟨-, rfl⟩ := gives_pure_iff.1 h
    exact .refl
  | cons name rest ih =>
    have later := gives_get_bind_iff.1 h
    split at later
    · obtain ⟨-, rfl⟩ := gives_throw_iff.1 later
      exact .refl
    · exact adds_of_bind anchored later (adds_of_membersIfClass anchored)
        fun anchored' _ _ further => ih anchored' further

theorem adds_of_findMemberPath (anchored : s.Anchored) {fragment : LoadedFragment} {path : String}
    {r : Except SymbolError DeclId} (h : Gives (findMemberPath fragment path) s r s') :
    ReflTransGen (Adds locals) s s' :=
  adds_of_followPath anchored h

/-! ## Modules -/

def Store.HasModule (store : Store) (module : DeclId) : Prop :=
  ∃ declaration, store.get? module = some declaration ∧ declaration.isModule = true

theorem Store.HasModule.mono {s t : Store} {module : DeclId} (wider : s.Extends t)
    (h : s.HasModule module) :
    t.HasModule module := by
  obtain ⟨declaration, stored, outermost⟩ := h
  obtain ⟨declaration', stored', same⟩ := wider.kept stored
  exact ⟨declaration', stored',
    (Declaration.congr_unread Declaration.isModule_unread same).trans outermost⟩

theorem adds_of_loadModule {table : SymbolTable} {r : Except SymbolError DeclId}
    (h : Gives (loadModule table) s r s') :
    Adds locals s s' := by
  obtain ⟨-, rfl⟩ := loadModule_cases h
  apply Adds.receive (batch_singleton rfl (by simp [Declaration.class?]))
  intro _ hd
  obtain rfl := List.mem_singleton.1 hd
  exact .module rfl rfl

theorem adds_of_loadFragment {table : SymbolTable} {module : DeclId} (outer : s.HasModule module)
    {name : String} {r : Except SymbolError DeclId}
    (h : Gives (loadFragment table module name) s r s') : ReflTransGen (Adds locals) s s' := by
  rcases loadFragment_cases h with ⟨_, -, rfl⟩ | ⟨data, -, rfl⟩
  · exact .refl
  · obtain ⟨declaration, stored, outermost⟩ := outer
    apply ReflTransGen.single
    apply Adds.receive (batch_singleton rfl (by simp [Declaration.class?]))
    intro _ hd
    obtain rfl := List.mem_singleton.1 hd
    exact .fragment module declaration rfl rfl stored outermost

/-- The top-level classes of a package fragment are stored, all of them or none. -/
theorem adds_of_loadTopLevelClasses {table : SymbolTable} {fragment : Declaration}
    (stored : s.get? fragment.id = some fragment) {r : Except SymbolError (List DeclId)}
    (h : Gives (loadTopLevelClasses table fragment) s r s') : Adds locals s s' := by
  rcases loadTopLevelClasses_cases h with ⟨_, m, -, le, rfl⟩ |
    ⟨data, next, ds, package, -, batch, rfl, read⟩
  · exact adds_upTo le
  · apply Adds.receive batch
    intro declaration hd
    obtain ⟨path, record, made⟩ := read declaration hd
    exact .read (.ofFragment fragment.id data.names data.types) (.fragment stored package)
      (@ScopeContext.Reads.member locals _ _ _ (.classifier record) _ made)

theorem adds_of_loadFragmentWithClasses (anchored : s.Anchored) {table : SymbolTable}
    {module : DeclId} (outer : s.HasModule module) {name : String}
    {r : Except SymbolError LoadedFragment}
    (h : Gives (loadFragmentWithClasses table module name) s r s') :
    ReflTransGen (Adds locals) s s' := by
  refine adds_of_bind anchored h (adds_of_loadFragment outer) fun {id s₁} anchored' _ _ h => ?_
  rcases gives_reading_bind_iff.1 h with ⟨_, -, -, rfl⟩ | ⟨fragment, resolved, later⟩
  · exact .refl
  have stored := resolve_eq_ok_iff.1 resolved
  obtain rfl := anchored'.keyed stored
  refine adds_of_bind anchored' later
    (fun read => .single (adds_of_loadTopLevelClasses stored read)) fun _ _ _ done => ?_
  obtain ⟨-, rfl⟩ := gives_pure_iff.1 done
  exact .refl

/-- A module is stored first, then one package fragment after the other, each with its top-level
classes. -/
theorem adds_of_loadAll (anchored : s.Anchored) {table : SymbolTable}
    {r : Except SymbolError LoadedModule} (h : Gives (loadAll table) s r s') :
    ReflTransGen (Adds locals) s s' := by
  refine adds_of_bind anchored h (fun begun => .single (adds_of_loadModule begun))
    fun {module s₁} anchored' _ begun h => ?_
  have outer : s₁.HasModule module := by
    obtain ⟨e, rfl⟩ := loadModule_cases begun
    obtain rfl := Except.ok.inj e
    exact ⟨_, by rw [get?_insert, if_pos rfl], rfl⟩
  -- each fragment is stored below the module, which is still there
  have fragment {name : String} {s r s'} (anchored : s.Anchored) (outer : s.HasModule module)
      (h : Gives (do return (name, ← loadFragmentWithClasses table module name)) s r s') :
      ReflTransGen (Adds locals) s s' := by
    obtain ⟨r', loaded, -⟩ := gives_bind_pure_iff.1 h
    exact adds_of_loadFragmentWithClasses anchored outer loaded
  refine adds_of_bind anchored' h (adds_of_mapM HasModule.mono fragment anchored' outer)
    fun _ _ _ done => ?_
  obtain ⟨-, rfl⟩ := gives_pure_iff.1 done
  exact .refl

/-! ## Local declarations -/

namespace LocalRecord

def member : LocalRecord → MemberRecord
  | .classRecord record => .classifier record
  | .function record => .function record
  | .constructor record => .constructor record
  | .property record => .property record

def isVariable : LocalRecord → Bool
  | .property record => record.usedAsVariable
  | _ => false

def reader (record : LocalRecord) (site : Site) (base : Store) : Reader := fun id => do
  let declaration ← record.member.reader site base id
  return if record.isVariable then declaration.asVariable else declaration

variable {record : LocalRecord} {id : DeclId} {declaration : Declaration}

theorem reader_eq_ok_iff {site : Site} {base : Store} :
    record.reader site base id = .ok declaration ↔
    ∃ read, record.member.reader site base id = .ok read ∧
      declaration = if record.isVariable then read.asVariable else read := by
  simp only [reader, Except.bind_eq_ok_iff]
  exact exists_congr fun read =>
    and_congr_right fun _ => ⟨fun h => (Except.ok.inj h).symm, fun h => h ▸ rfl⟩

theorem fresh_reader (site : Site) (base : Store) (record : LocalRecord) :
    Reader.Fresh (record.reader site base) := by
  intro id declaration h
  obtain ⟨read, made, rfl⟩ := reader_eq_ok_iff.1 h
  obtain ⟨own, origin, unread⟩ := record.member.fresh_reader _ _ made
  obtain ⟨_, name, container, annotations, _, kind⟩ := read
  cases record.isVariable with
  | false => exact ⟨own, origin, unread⟩
  | true =>
    cases kind with
    | property data => exact ⟨own, origin, fun _ h => nomatch h⟩
    | _ => exact ⟨own, origin, unread⟩

/-- A local declaration is read in its context, as that of a member or of a local variable. -/
theorem reads {context : ScopeContext} {path : String} {base : Store}
    (allowed : ∀ property, record = .property property → property.usedAsVariable = true →
      locals property)
    (h : record.reader ⟨context, path⟩ base id = .ok declaration) :
    context.Reads locals base declaration := by
  obtain ⟨read, made, rfl⟩ := reader_eq_ok_iff.1 h
  obtain ⟨rfl, -⟩ := record.member.fresh_reader _ _ made
  cases h : record.isVariable with
  | false => exact .member made
  | true =>
    cases record with
    | property record => exact .localVariable (allowed record rfl h) made
    | _ => cases h

end LocalRecord

/-- Reading a local record gives out an id for it, unless the record is that of a constructor
outside of a class. -/
theorem Tower.load_cases {tower : Tower} {record : LocalRecord} {r : Except SymbolError Declaration}
    (h : Gives (tower.load record) s r s') : r = record.reader (tower.context.site s) s s.next ∧
      (s' = s.reserve ∨ (∃ e, r = .error e) ∧ s' = s) := by
  have later := gives_get_bind_iff.1 h
  cases record with
  | classRecord record =>
    obtain ⟨rfl, rfl⟩ := Site.gives_read_reserved later
    simp [LocalRecord.reader, LocalRecord.isVariable, LocalRecord.member, MemberRecord.reader]
  | function record =>
    obtain ⟨rfl, rfl⟩ := Site.gives_read_reserved later
    simp [LocalRecord.reader, LocalRecord.isVariable, LocalRecord.member, MemberRecord.reader]
  | constructor record =>
    rcases gives_reading_bind_iff.1 later with ⟨e, refused, rfl, rfl⟩ | ⟨⟨owner, data⟩, owned, last⟩
    · simp [LocalRecord.reader, LocalRecord.member, MemberRecord.reader, Site.constructorReader,
        refused, bind, Except.bind]
    · obtain ⟨rfl, rfl⟩ := Site.gives_read_reserved last
      simp [LocalRecord.reader, LocalRecord.isVariable, LocalRecord.member, MemberRecord.reader,
        Site.constructorReader, owned]
      rfl
  | property record =>
    rcases gives_bind_iff.1 later with ⟨e, rfl, failed⟩ | ⟨declaration, _, read, last⟩
    · obtain ⟨refused, rfl⟩ := Site.gives_read_reserved failed
      simp [LocalRecord.reader, LocalRecord.member, MemberRecord.reader, ← refused, bind,
        Except.bind]
    · obtain ⟨made, rfl⟩ := Site.gives_read_reserved read
      obtain ⟨rfl, rfl⟩ := gives_pure_iff.1 last
      simp [LocalRecord.reader, LocalRecord.isVariable, LocalRecord.member, MemberRecord.reader,
        ← made, bind, Except.bind, pure, Except.pure]
      rfl

/-- A local record is found at its place, and its chain makes a tower. -/
theorem found_of_localRecord {table : SymbolTable} {target : RecordRef} {chain : List Declaration}
    {tower : Tower} {record : LocalRecord}
    (h : localRecord table target chain = .ok (tower, record)) :
    Tower.build chain = .ok tower ∧ table.record target = .ok record := by
  obtain ⟨tower', built, later⟩ := Except.bind_eq_ok_iff.1 h
  split at later
  · cases later
  · obtain ⟨_, read, made⟩ := Except.bind_eq_ok_iff.1 later
    obtain ⟨rfl, rfl⟩ := Prod.mk.inj (Except.ok.inj made)
    exact ⟨built, Except.mapError_eq_ok_iff.1 read⟩

theorem build_of_localRecord {table : SymbolTable} {target : RecordRef} {chain : List Declaration}
    {tower : Tower} {record : LocalRecord}
    (h : localRecord table target chain = .ok (tower, record)) : Tower.build chain = .ok tower :=
  (found_of_localRecord h).1

/-- A local declaration is stored under the id that was given out for it, or nothing is stored. -/
theorem resolveLocal_cases {table : SymbolTable} {target : RecordRef} {chain : List Declaration}
    {r : Except SymbolError DeclId} (h : Gives (resolveLocal table target chain) s r s') :
    (∃ e, r = .error e ∧ (s' = s ∨ s' = s.reserve)) ∨ ∃ tower record declaration,
      localRecord table target chain = .ok (tower, record) ∧
      record.reader (tower.context.site s) s s.next = .ok declaration ∧ r = .ok s.next ∧
      s' = s.receive s.next.next [declaration] := by
  rcases gives_ofExcept_bind_iff.1 h with ⟨e, -, rfl, rfl⟩ | ⟨⟨tower, record⟩, found, later⟩
  · exact .inl ⟨e, rfl, .inl rfl⟩
  rcases gives_bind_iff.1 later with ⟨e, rfl, failed⟩ | ⟨declaration, _, read, last⟩
  · exact .inl ⟨e, rfl, ((Tower.load_cases failed).2.imp_right And.right).symm⟩
  · obtain ⟨made, rfl | ⟨⟨_, contra⟩, -⟩⟩ := Tower.load_cases read
    · obtain ⟨own, -⟩ := record.fresh_reader _ _ made.symm
      obtain ⟨rfl, rfl⟩ := gives_insert_iff.1 last
      exact .inr ⟨tower, record, declaration, found, made.symm, by rw [own], rfl⟩
    · cases contra

/-- A local declaration whose record can be read is stored under the next id. -/
theorem exists_gives_resolveLocal {table : SymbolTable} {target : RecordRef}
    {chain : List Declaration} {tower : Tower} {record : LocalRecord} {declaration : Declaration}
    (found : localRecord table target chain = .ok (tower, record))
    (read : record.reader (tower.context.site s) s s.next = .ok declaration) :
    ∃ s', Gives (resolveLocal table target chain) s (.ok s.next) s' ∧
      s'.get? s.next = some declaration := by
  obtain ⟨own, -⟩ := record.fresh_reader _ _ read
  refine ⟨s.reserve.insert declaration,
    gives_ofExcept_bind_iff.2 (.inr ⟨(tower, record), found, ?_⟩), ?_⟩
  · obtain ⟨r, s₁, loaded⟩ := exists_gives (tower.load record) s
    obtain ⟨rfl, rfl | ⟨⟨e, failed⟩, -⟩⟩ := Tower.load_cases loaded
    · rw [read] at loaded
      exact gives_bind_iff.2
        (.inr ⟨declaration, s.reserve, loaded, gives_insert_iff.2 ⟨by rw [own], rfl⟩⟩)
    · cases failed.symm.trans read
  · rw [get?_insert, if_pos own]

/-- A local declaration is read in the context of the tower of stored declarations, and stored. A
local variable is one of the records `locals`. -/
theorem adds_of_resolveLocal (anchored : s.Anchored) {table : SymbolTable} {target : RecordRef}
    {chain : List Declaration}
    (registered : ∀ declaration ∈ chain, s.get? declaration.id = some declaration)
    (allowed : ∀ record, table.record target = .ok (.property record) →
      record.usedAsVariable = true → locals record)
    {r : Except SymbolError DeclId} (h : Gives (resolveLocal table target chain) s r s') :
    ReflTransGen (Adds locals) s s' := by
  rcases resolveLocal_cases h with ⟨_, -, rfl | rfl⟩ |
    ⟨tower, record, declaration, found, read, -, rfl⟩
  · exact .refl
  · exact .single (adds_upTo (Nat.le_succ _))
  obtain ⟨own, -, unread⟩ := record.fresh_reader _ _ read
  obtain ⟨built, stored⟩ := found_of_localRecord found
  -- the chain is one of stored declarations, so its tower has the context inside the last one
  have inside := Tower.inside_of_build registered built
  apply ReflTransGen.single
  apply Adds.receive (batch_singleton own unread)
  intro _ hd
  obtain rfl := List.mem_singleton.1 hd
  refine .read tower.context ((inside.owner_eq anchored.keyed).symm ▸ inside)
    (LocalRecord.reads ?_ (own.symm ▸ read))
  rintro property rfl isVariable
  exact allowed property stored isVariable

/-! ## Sequences of operations -/

/-- One operation that loads something, whatever it gives. A local declaration is read with the
chain of its parent. -/
inductive Store.Loading (s s' : Store) : Prop
  | all (table : SymbolTable) (r : Except SymbolError LoadedModule) :
    Gives (loadAll table) s r s' → Loading s s'
  | members (id : DeclId) (r : Except SymbolError (List DeclId)) :
    Gives (classMembers id) s r s' → Loading s s'
  | path (fragment : LoadedFragment) (path : String) (r : Except SymbolError DeclId) :
      Gives (findMemberPath fragment path) s r s' → Loading s s'
  | inside (table : SymbolTable) (target : RecordRef) (parent : DeclId) (chain : List Declaration)
      (r : Except SymbolError DeclId) : s.ownershipChain parent = .ok chain →
      Gives (resolveLocal table target chain) s r s' → Loading s s'

namespace Store

variable {t : Store}

/-- Loading is a sequence of additions. -/
theorem Anchored.adds_of_loading (anchored : s.Anchored) (h : s.Loading t) :
    ReflTransGen (Adds fun _ => True) s t := by
  cases h with
  | all _ _ loaded => exact adds_of_loadAll anchored loaded
  | members _ _ asked => exact adds_of_classMembers anchored asked
  | path _ _ _ followed => exact adds_of_findMemberPath anchored followed
  | inside _ _ _ _ _ leads resolved =>
    obtain ⟨chained, -, -⟩ := ownershipChain_eq_ok_iff.1 leads
    exact adds_of_resolveLocal anchored (chained.stored anchored.keyed)
      (fun _ _ _ => trivial) resolved

/-- Loading keeps a store rooted, and adds declarations to it. -/
theorem Rooted.of_loading (rooted : s.Rooted) (run : ReflTransGen Loading s t) :
    t.Rooted ∧ ReflTransGen (Adds fun _ => True) s t := by
  induction run with
  | refl => exact ⟨rooted, .refl⟩
  | tail _ step ih =>
    obtain ⟨rooted', adds⟩ := ih
    have further := rooted'.anchored.adds_of_loading step
    exact ⟨(rooted'.of_additions further).1, adds.trans further⟩

end Store

end ClassSymbols
