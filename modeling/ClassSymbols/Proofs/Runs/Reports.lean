import ClassSymbols.Proofs.Loading.Reports
import ClassSymbols.Proofs.Loading.Runs

/-!
# Unresolved references say where they are

In a store that was made by loading, the path of a context is the names on the chain of its
innermost declaration. So a reference that cannot be resolved is reported with the name of the
declaration that it was met in, and the dotted names of the declarations around that one, whatever
operation meets it.

## Main definitions

* `Store.Spells` — the dotted names on the way to a declaration.
* `Store.Blames` — whether an error is that of a record in a declaration, and says so.

## Main statements

* `Store.Rooted.blames` — the reading of a record fails with an error that says where.
* `unresolved_says_where` — so do all operations that load something.
-/

namespace ClassSymbols

open Relation Store

variable {s s' : Store} {id : DeclId} {e : SymbolError}

namespace Store

/-- Whether `scope` is the dotted names on the way to a declaration, from its package fragment,
which has the names `names`, down to itself. -/
def Spells (s : Store) (id : DeclId) (names : NameTable) (scope : String) : Prop :=
  ∃ module fragment data enclosing,
    s.Chain id (module :: fragment :: enclosing) ∧ fragment.package? = some data ∧
    data.names = names ∧ scope = Text.dotted ((fragment :: enclosing).map (·.name))

/-- Whether an error is what reading a record inside a declaration fails with, and says so if it is
about a reference: with the name of what the record declares, and the dotted names on the way to the
declaration. -/
structure Blames (s : Store) (container : DeclId) (record : MemberRecord) (e : SymbolError) :
    Prop where
  fails : ∃ context id, s.Inside container context ∧ record.reader (context.site s) s id = .error e
  met : ∀ symbol scope, e.place? = some (symbol, scope) →
    ∃ names, s.Spells container names scope ∧ symbol = record.symbol names

namespace Rooted

variable (rooted : s.Rooted) {context : ScopeContext}
include rooted

/-- The path of the context inside a declaration is the names on the way to it. -/
theorem spells (inside : s.Inside id context) : s.Spells id context.names (context.path s) := by
  obtain ⟨declaration, stored⟩ := inside.exists_get?
  obtain ⟨chain, leads⟩ := rooted.exists_chain stored
  obtain ⟨tower, built, rfl⟩ := inside.exists_tower rooted.toWellFormed rooted.placed leads
  have describes := Tower.describes_of_build built
  obtain ⟨fragment, data, second, package, -, names⟩ := describes.names
  have path := describes.path s (leads.stored rooted.keyed)
  rw [← describes.chain_eq] at leads second
  obtain rfl := Option.some.inj second
  exact ⟨_, _, data, _, leads, package, names.symm, path⟩

/-- The reading of a record inside a declaration fails with an error that says where. -/
theorem blames (inside : s.Inside id context) {record : MemberRecord} {n : DeclId}
    (failed : record.reader (context.site s) s n = .error e) : s.Blames id record e where
  fails := ⟨context, n, inside, failed⟩
  met symbol scope met := by
    obtain ⟨rfl, rfl⟩ := Prod.mk.inj (record.reports_reader _ _ _ _ failed _ met)
    exact ⟨context.names, rooted.spells inside, rfl⟩

end Rooted

end Store

/-! ## Failures -/

theorem exists_mem_of_readAll {n : Nat} {reads : List Reader}
    (failed : readAll n reads = .error e) :
    ∃ read ∈ reads, ∃ id, read id = .error e := by
  induction reads generalizing n with
  | nil => cases failed
  | cons read reads ih =>
    rw [readAll] at failed
    cases first : read ⟨n⟩ with
    | error e' =>
      rw [first] at failed
      obtain rfl := Except.error.inj failed
      exact ⟨read, List.mem_cons_self, _, first⟩
    | ok declaration =>
      cases others : readAll (n + 1) reads with
      | error e' =>
        rw [first, others] at failed
        obtain rfl := Except.error.inj failed
        obtain ⟨broken, among, refused⟩ := ih others
        exact ⟨broken, List.mem_cons_of_mem _ among, refused⟩
      | ok declarations =>
        rw [first, others] at failed
        cases failed

/-- A traversal fails with one of its steps. -/
theorem exists_mem_of_mapM_error {α β : Type} {step : α → StoreM β} {list : List α}
    (failed : Gives (list.mapM step) s (.error e) s') :
    ∃ a ∈ list, ∃ t, Gives (step a) t (.error e) s' := by
  induction list generalizing s with
  | nil => cases (gives_pure_iff.1 failed).1
  | cons a rest ih =>
    rw [List.mapM_cons] at failed
    rcases gives_bind_iff.1 failed with ⟨_, e, first⟩ | ⟨_, t, -, later⟩
    · exact ⟨a, List.mem_cons_self, s, Except.error.inj e ▸ first⟩
    · obtain ⟨_ | _, others, same⟩ := gives_bind_pure_iff.1 later
      · obtain rfl := Except.error.inj same
        obtain ⟨broken, among, refused⟩ := ih others
        exact ⟨broken, List.mem_cons_of_mem _ among, refused⟩
      · cases same

theorem Placeless.not_isSome {α : Type} {x : Except SymbolError α} (placeless : Placeless x)
    (failed : x = .error e) :
    ¬ e.place?.isSome := by
  simp [placeless e failed]

/-! ### Members -/

/-- The members of a class fail for a reference only in one of its records. -/
theorem exists_record_of_classMembers (wf : s.WellFormed)
    (failed : Gives (classMembers id) s (.error e) s') (met : e.place?.isSome) :
    ∃ data reading record n, s.IsClass id data ∧ data.members = .deferred reading ∧
      record ∈ reading.record.members ∧ record.reader (reading.context.site s) s n = .error e := by
  rcases gives_reading_bind_iff.1 failed with ⟨_, missing, same, -⟩ |
    ⟨declaration, resolved, answer⟩
  · obtain rfl := Except.error.inj same
    exact absurd met ((s.placeless_resolve id).not_isSome missing)
  have stored := resolve_eq_ok_iff.1 resolved
  cases hc : declaration.class? with
  | none =>
    rw [hc] at answer
    obtain ⟨same, -⟩ := gives_throw_iff.1 answer
    obtain rfl := Except.error.inj same
    cases met
  | some data =>
    cases hr : data.members with
    | eager members =>
      simp only [hc, hr] at answer
      cases (gives_pure_iff.1 answer).1
    | deferred reading =>
      cases hl : reading.loaded with
      | some members =>
        simp only [hc, hr, hl] at answer
        cases (gives_pure_iff.1 answer).1
      | none =>
        simp only [hc, hr, hl] at answer
        rcases gives_loadMembers_cases (wf.allocated stored) answer with ⟨_, same, -⟩ |
          ⟨_, m, same, stopped, -⟩
        · cases same
        obtain rfl := Except.error.inj same
        obtain ⟨read, among, n, refused⟩ := exists_mem_of_readAll stopped
        rw [Site.readers_eq] at among
        obtain ⟨record, listed, rfl⟩ := List.mem_map.1 among
        exact ⟨data, reading, record, n, ⟨declaration, stored, hc⟩, hr, listed, refused⟩

/-! ### Modules -/

section Tables

variable {table : SymbolTable}

theorem eq_of_fragment_eq_error {name : String} {missing : TableError}
    (failed : table.fragment name = .error missing) :
    missing = .unknownFragment name := by
  rw [SymbolTable.fragment] at failed
  split at failed
  · cases failed
  · exact (Except.error.inj failed).symm

theorem placeless_classes (table : SymbolTable) (name : String) :
    Placeless ((table.classes name).mapError .ofTableError) := by
  rw [SymbolTable.classes]
  cases entry : table.fragment name with
  | error missing =>
    obtain rfl := eq_of_fragment_eq_error entry
    exact .error rfl
  | ok fragment => exact .ok _

theorem placeless_record (table : SymbolTable) (target : RecordRef) :
    Placeless ((table.record target).mapError .ofTableError) := by
  rw [SymbolTable.record]
  cases entry : table.fragment target.fragment with
  | error missing =>
    obtain rfl := eq_of_fragment_eq_error entry
    exact .error rfl
  | ok fragment =>
    simp only [bind, Except.bind]
    split
    · exact .ok _
    · exact .error rfl

/-- The payload of a package fragment is that of its entry. -/
theorem readFragment_cases (table : SymbolTable) (name : String) :
    Placeless (readFragment table name) ∧
    ∀ data, readFragment table name = .ok data →
      ∃ fragment, table.fragment name = .ok fragment ∧
        data = ⟨name, fragment.names, fragment.types⟩ := by
  rw [readFragment, SymbolTable.nameTable, SymbolTable.packageTypes]
  cases entry : table.fragment name with
  | error missing =>
    obtain rfl := eq_of_fragment_eq_error entry
    exact ⟨.error rfl, fun _ contra => nomatch contra⟩
  | ok fragment => exact ⟨.ok _, fun _ made => ⟨fragment, rfl, (Except.ok.inj made).symm⟩⟩

theorem exists_fragment_of_classes {name : String} {records : List ClassRecord}
    (listed : table.classes name = .ok records) :
    ∃ fragment, table.fragment name = .ok fragment ∧ records = fragment.classes := by
  rw [SymbolTable.classes] at listed
  cases entry : table.fragment name with
  | error missing =>
    rw [entry] at listed
    cases listed
  | ok fragment =>
    rw [entry] at listed
    exact ⟨fragment, rfl, (Except.ok.inj listed).symm⟩

/-- The top-level classes of a package fragment fail for a reference only in one of their
records. -/
theorem exists_record_of_loadTopLevelClasses {fragment : Declaration}
    (failed : Gives (loadTopLevelClasses table fragment) s (.error e) s') (met : e.place?.isSome) :
    ∃ data entry record n m, fragment.package? = some data ∧
      table.fragment data.qualifiedName = .ok entry ∧
      record ∈ entry.classes ∧ s' = s.upTo m ∧
      Site.readClass ((ScopeContext.ofFragment fragment.id data.names data.types).site s) n record =
        .error e := by
  unfold loadTopLevelClasses at failed
  cases package : fragment.package? with
  | none =>
    rw [package] at failed
    obtain ⟨same, -⟩ := gives_throw_iff.1 failed
    obtain rfl := Except.error.inj same
    cases met
  | some data =>
    rw [package] at failed
    rcases gives_ofExcept_bind_iff.1 (gives_get_bind_iff.1 failed) with ⟨_, refused, same, -⟩ |
      ⟨records, listed, later⟩
    · obtain rfl := Except.error.inj same
      exact absurd met ((placeless_classes table data.qualifiedName).not_isSome refused)
    obtain ⟨entry, found, rfl⟩ := exists_fragment_of_classes (Except.mapError_eq_ok_iff.1 listed)
    let site := (ScopeContext.ofFragment fragment.id data.names data.types).site s
    have loads := @mapM_loads _ s _ _ (Site.loads_class site) entry.classes
    rcases loads.bind (n := s.next.number) later with ⟨_, m, same, stopped, -, rfl⟩ | ⟨ds, -, kept⟩
    · obtain rfl := Except.error.inj same
      obtain ⟨read, among, n, refused⟩ := exists_mem_of_readAll stopped
      obtain ⟨record, listed, rfl⟩ := List.mem_map.1 among
      exact ⟨data, entry, record, n, m, rfl, found, listed, rfl, refused⟩
    · cases (gives_insertAll_iff.1 kept).1

/-- A package fragment fails for a reference only in the record of a top-level class. The fragment
is stored then. -/
theorem exists_record_of_loadFragmentWithClasses {module : DeclId} {name : String}
    (failed : Gives (loadFragmentWithClasses table module name) s (.error e) s')
    (met : e.place?.isSome) :
    ∃ fragment record container declaration n,
      table.fragment name = .ok fragment ∧ record ∈ fragment.classes ∧
      s'.get? container = some declaration ∧ declaration.name = name ∧
      declaration.package? = some ⟨name, fragment.names, fragment.types⟩ ∧
      Site.readClass ((ScopeContext.ofFragment container fragment.names fragment.types).site s') n
        record = .error e := by
  rcases gives_bind_iff.1 failed with ⟨_, same, first⟩ | ⟨id, t, loaded, later⟩
  · obtain rfl := Except.error.inj same
    rcases gives_ofExcept_bind_iff.1 first with ⟨_, refused, same, -⟩ | ⟨data, -, done⟩
    · obtain rfl := Except.error.inj same
      exact absurd met ((readFragment_cases table name).1.not_isSome refused)
    · cases (gives_insert_iff.1 (gives_reserve_bind_iff.1 done)).1
  rcases gives_ofExcept_bind_iff.1 loaded with ⟨_, -, contra, -⟩ | ⟨data, payload, done⟩
  · cases contra
  obtain ⟨fragment, entry, rfl⟩ := (readFragment_cases table name).2 data payload
  obtain ⟨same, rfl⟩ := gives_insert_iff.1 (gives_reserve_bind_iff.1 done)
  obtain rfl := Except.ok.inj same
  rcases gives_reading_bind_iff.1 later with ⟨_, missing, same, -⟩ | ⟨declaration, resolved, last⟩
  · obtain rfl := Except.error.inj same
    exact absurd met ((placeless_resolve _ _).not_isSome missing)
  have stored := resolve_eq_ok_iff.1 resolved
  rw [get?_insert, if_pos rfl] at stored
  obtain rfl := Option.some.inj stored
  rcases gives_bind_iff.1 last with ⟨_, same, classes⟩ | ⟨_, _, -, done⟩
  · obtain rfl := Except.error.inj same
    obtain ⟨data, entry', record, n, m, package, found, among, rfl, refused⟩ :=
      exists_record_of_loadTopLevelClasses classes met
    obtain rfl := Option.some.inj package
    obtain rfl := Except.ok.inj (entry.symm.trans found)
    exact ⟨fragment, record, _, _, n, entry, among, resolve_eq_ok_iff.1 resolved, rfl, rfl, refused⟩
  · cases (gives_pure_iff.1 done).1

/-- A module fails for a reference only in one of its package fragments. -/
theorem exists_fragment_of_loadAll (failed : Gives (loadAll table) s (.error e) s') :
    ∃ name module t, Gives (loadFragmentWithClasses table module name) t (.error e) s' := by
  rcases gives_bind_iff.1 failed with ⟨_, -, first⟩ | ⟨module, t, -, later⟩
  · cases (loadModule_cases first).1
  rcases gives_bind_iff.1 later with ⟨_, same, fragments⟩ | ⟨_, _, -, done⟩
  · obtain rfl := Except.error.inj same
    obtain ⟨name, -, u, step⟩ := exists_mem_of_mapM_error fragments
    obtain ⟨_ | _, loaded, same⟩ := gives_bind_pure_iff.1 step
    · exact ⟨name, module, u, Except.error.inj same ▸ loaded⟩
    · cases same
  · cases (gives_pure_iff.1 done).1

/-! ### Local declarations -/

theorem placeless_localRecord (table : SymbolTable) (target : RecordRef)
    (chain : List Declaration) :
    Placeless (localRecord table target chain) := by
  refine Placeless.bind ?_ fun tower _ => ?_
  · by_cases stacked : Tower.Stacked chain
    · obtain ⟨tower, built, -⟩ := Tower.exists_describes stacked
      exact built ▸ .ok tower
    · obtain ⟨reason, refused⟩ := Tower.build_of_not_stacked stacked
      exact refused ▸ .error rfl
  · split
    · exact .error rfl
    · exact (placeless_record table target).bind fun _ _ => .ok _

/-- A local declaration fails for a reference only in its record. -/
theorem exists_record_of_resolveLocal {target : RecordRef} {chain : List Declaration}
    (failed : Gives (resolveLocal table target chain) s (.error e) s') (met : e.place?.isSome) :
    ∃ tower record, Tower.build chain = .ok tower ∧ table.record target = .ok record ∧
      record.member.reader (tower.context.site s) s s.next = .error e := by
  rcases gives_ofExcept_bind_iff.1 failed with ⟨_, refused, same, -⟩ |
    ⟨⟨tower, record⟩, found, later⟩
  · obtain rfl := Except.error.inj same
    exact absurd met ((placeless_localRecord table target chain).not_isSome refused)
  obtain ⟨built, known⟩ := found_of_localRecord found
  refine ⟨tower, record, built, known, ?_⟩
  rcases gives_bind_iff.1 later with ⟨_, same, load⟩ | ⟨_, _, -, done⟩
  · obtain rfl := Except.error.inj same
    have read := (Tower.load_cases load).1.symm
    rw [LocalRecord.reader] at read
    cases member : record.member.reader (tower.context.site s) s s.next with
    | error e' =>
      rw [member] at read
      exact read
    | ok declaration =>
      rw [member] at read
      cases read
  · cases (gives_insert_iff.1 done).1

end Tables

/-- Let things be loaded into the empty store. Whatever fails there with a reference that cannot be
resolved says where the reference was met: in the record of a top-level class, of a member or of a
local declaration, and inside which declaration that is. A type that stands alone is read without a
record. -/
theorem unresolved_says_where (run : ReflTransGen Loading .empty s) :
    (∀ table e s', loadAll table s = .error e s' → e.place?.isSome →
      ∃ name fragment record container declaration,
      table.fragment name = .ok fragment ∧ record ∈ fragment.classes ∧
      s'.get? container = some declaration ∧
      declaration.name = name ∧ declaration.package?.isSome ∧
      s'.Blames container (.classifier record) e) ∧
    (∀ id e s', classMembers id s = .error e s' → e.place?.isSome →
      ∃ data reading record, s.IsClass id data ∧
      data.members = .deferred reading ∧ record ∈ reading.record.members ∧ s.Blames id record e) ∧
    (∀ parent chain, s.ownershipChain parent = .ok chain →
      (∀ table target e s', resolveLocal table target chain s = .error e s' → e.place?.isSome →
        ∃ record,
        table.record target = .ok record ∧ s.Blames parent record.member e) ∧
      ∀ tower type e symbol scope, Tower.build chain = .ok tower →
        tower.readInlineType type = .error e →
        e.place? = some (symbol, scope) →
        symbol = "<inline type>" ∧ ∃ names, s.Spells parent names scope) := by
  obtain ⟨rooted, -⟩ := Rooted.empty.of_loading run
  refine ⟨fun table e s' failed met => ?_,
    fun id e s' failed met => ?_, fun parent chain leads => ⟨?_, ?_⟩⟩
  · have failed := gives_error_iff.2 failed
    obtain ⟨rooted', -⟩ := rooted.of_loading (.single (.all table _ failed))
    obtain ⟨name, module, t, failed⟩ := exists_fragment_of_loadAll failed
    obtain ⟨fragment, record, container, declaration, n, entry, among, stored, named, package,
      failed⟩ :=
      exists_record_of_loadFragmentWithClasses failed met
    refine ⟨name, fragment, record, container, declaration, entry, among, stored, named,
      by simp [package], ?_⟩
    exact rooted'.blames (.fragment stored package) failed
  · obtain ⟨data, reading, record, n, isClass, hr, among, failed⟩ :=
      exists_record_of_classMembers rooted.toWellFormed (gives_error_iff.2 failed) met
    exact ⟨data, reading, record, isClass, hr, among,
      rooted.blames (rooted.anchored.inside isClass hr) failed⟩
  · intro table target e s' failed met
    obtain ⟨tower, record, built, found, failed⟩ :=
      exists_record_of_resolveLocal (gives_error_iff.2 failed) met
    obtain ⟨chained, -, -⟩ := ownershipChain_eq_ok_iff.1 leads
    exact ⟨record, found, rooted.blames (chained.inside_of_build rooted.keyed built) failed⟩
  · intro tower type e symbol scope built failed met
    obtain ⟨chained, -, -⟩ := ownershipChain_eq_ok_iff.1 leads
    have inside := chained.inside_of_build rooted.keyed built
    have path := (Tower.describes_of_build built).path s (chained.stored rooted.keyed)
    obtain ⟨rfl, rfl⟩ :=
      Prod.mk.inj (Reports.within (tower.context.bare_readType type) _ failed _ met)
    exact ⟨rfl, tower.context.names, path ▸ rooted.spells inside⟩

/-- A module with a class `A` that has a function `f`. The argument of the type that `f` returns is
in no type table. -/
def danglingModule : SymbolTable where
  module := "m"
  fragments := .ofList [("p", {
    names := { strings := ["A", "f"], qualifiedNames := [{ shortName := 0, kind := .classifier }] }
    types := {}
    classes := [{
      qualifiedName := 0
      functions := [{
        name := 1
        returnType :=
          .inline (.mk (.className 0) [.mk (.varying .invariant) (some (.table 9))] false) }] }]
    records := [] })]

/-- The missing type is reported in `f`, in `p.A`. -/
theorem unresolved_says_where_of_dangling : let s := Store.empty.after (loadAll danglingModule)
    ∃ e s', classMembers ⟨3⟩ s = .error e s' ∧ e = .unresolvedType 9 "f" "p.A" ∧
      ∃ data reading record, s.IsClass ⟨3⟩ data ∧ data.members = .deferred reading ∧
        record ∈ reading.record.members ∧ s.Blames ⟨3⟩ record e := by
  intro s
  obtain ⟨r, loaded⟩ := Store.exists_gives_after .empty (loadAll danglingModule)
  have run : ReflTransGen Loading .empty s := .single (.all danglingModule r loaded)
  have fails : (match classMembers ⟨3⟩ s with
      | .error e _ => some e
      | .ok _ _ => none) = some (.unresolvedType 9 "f" "p.A") := by decide +kernel
  cases failed : classMembers ⟨3⟩ s with
  | ok members s' =>
    rw [failed] at fails
    cases fails
  | error e s' =>
    rw [failed] at fails
    obtain rfl := Option.some.inj fails
    exact ⟨_, s', rfl, rfl, (unresolved_says_where run).2.1 _ _ _ failed rfl⟩

end ClassSymbols
