import ClassSymbols.Proofs.Loading.Runs
import ClassSymbols.Proofs.Resolution.Answers

/-!
# What any operation changes

Whatever is done with a store — modules and single declarations are loaded, members and effective
members are asked for, ids are given out, and declarations that were not read are stored under free
ids — it is a sequence of changes of three kinds: read declarations are stored, the members of a
class are noted, or a declaration is stored that was not read. An invariant of runs is checked for
these.

## Main definitions

* `Declaration.Made` — whether a declaration was not read from a symbol table.
* `Store.Changes` — one change of a store.
* `Store.Step` — one operation on a store.
* `StoreRule` — a relation of stores that passes from the steps of a question to the whole.

## Main statements

* `Store.Anchored.of_changes` — changes keep a store anchored, and lose nothing.
* `StoreRule.ask` — what passes from steps to questions.
* `Store.Anchored.changes_of_step` — an operation is a sequence of changes.
-/

namespace ClassSymbols

open Relation Store

/-! ## Changes -/

/-- Whether a declaration was not read from a symbol table. Its members, if it is a class, are given
with it. -/
structure Declaration.Made (declaration : Declaration) : Prop where
  origin : declaration.origin ≠ .deserialized
  eager : ∀ data, declaration.class? = some data → ∃ members, data.members = .eager members

namespace Store

/-- One change of a store: something is added by loading, or a declaration that was not read is
stored under a free id that has been given out. -/
inductive Changes (locals : PropertyRecord → Prop) : Store → Store → Prop
  | loaded {s t : Store} : Adds locals s t → Changes locals s t
  | made {s : Store} {declaration : Declaration} : declaration.Made → s.get? declaration.id = none →
      declaration.id.number < s.next.number → Changes locals s (s.insert declaration)

variable {locals : PropertyRecord → Prop} {s t : Store} {declaration : Declaration}

theorem Extends.insert (free : s.get? declaration.id = none) :
    s.Extends (s.insert declaration) := by
  have other {id : DeclId} {d : Declaration} (stored : s.get? id = some d) :
      (s.insert declaration).get? id = some d := by
    rw [get?_insert, if_neg]
    · exact stored
    · rintro rfl
      cases free.symm.trans stored
  refine ⟨Nat.le_refl _, fun stored => ⟨_, other stored, rfl⟩, fun known => ?_⟩
  obtain ⟨data, ⟨d, stored, hc⟩, known⟩ := members?_eq_some_iff.1 known
  exact members?_eq_some_iff.2 ⟨data, ⟨d, other stored, hc⟩, known⟩

/-- A class whose members are read when first asked for is an old one if what is stored was not
read. -/
theorem IsClass.of_insert (made : declaration.Made) {id : DeclId} {data : ClassData}
    {reading : LazyMembers} (isClass : (s.insert declaration).IsClass id data)
    (hr : data.members = .deferred reading) : s.IsClass id data := by
  obtain ⟨d, stored, hc⟩ := isClass
  rw [get?_insert] at stored
  split at stored
  · obtain rfl := Option.some.inj stored
    obtain ⟨members, eager⟩ := made.eager data hc
    cases hr.symm.trans eager
  · exact ⟨d, stored, hc⟩

theorem Transcribed.of_change (wf : s.WellFormed) (h : s.Transcribed)
    (change : Changes locals s t) :
    t.Transcribed := by
  cases change with
  | loaded adds => exact h.of_adds wf adds
  | made made free _ =>
    intro id data reading members isClass hr known
    exact (h (isClass.of_insert made hr) hr known).imp fun _ _ => .mono (.insert free)

namespace Anchored

/-- A change keeps a store anchored, and loses nothing. -/
theorem of_change (h : s.Anchored) (change : Changes locals s t) : t.Anchored ∧ s.Extends t := by
  cases change with
  | loaded adds => exact h.of_adds adds
  | made made free allocated =>
    refine ⟨⟨h.toWellFormed.insert allocated, fun isClass hr => ?_⟩, .insert free⟩
    exact (h.inside (isClass.of_insert made hr) hr).mono (Extends.insert free).kept

/-- Changes keep a store anchored, and lose nothing. -/
theorem of_changes (h : s.Anchored) (changes : ReflTransGen (Changes locals) s t) :
    t.Anchored ∧ s.Extends t := by
  induction changes with
  | refl => exact ⟨h, .refl s⟩
  | tail _ change ih =>
    obtain ⟨anchored, wider⟩ := ih
    obtain ⟨anchored', wider'⟩ := anchored.of_change change
    exact ⟨anchored', wider.trans wider'⟩

end Anchored

theorem changes_of_additions (adds : ReflTransGen (Adds locals) s t) :
    ReflTransGen (Changes locals) s t :=
  adds.lift id fun _ _ => .loaded

/-- Declarations that were not read are stored one after the other. -/
theorem changes_of_insertAll {declarations : List Declaration} (made : ∀ d ∈ declarations, d.Made)
    (nodup : (declarations.map (·.id)).Nodup) (free : ∀ d ∈ declarations, s.get? d.id = none)
    (allocated : ∀ d ∈ declarations, d.id.number < s.next.number) :
    ReflTransGen (Changes locals) s (s.insertAll declarations) := by
  induction declarations generalizing s with
  | nil => exact .refl
  | cons declaration rest ih =>
    simp only [List.mem_cons, forall_eq_or_imp] at made free allocated
    obtain ⟨apart, nodup⟩ := List.nodup_cons.1 nodup
    refine .head (.made made.1 free.1 allocated.1) (ih made.2 nodup (fun d hd => ?_) allocated.2)
    rw [get?_insert, if_neg]
    · exact free.2 d hd
    · exact fun same => apart (List.mem_map.2 ⟨d, hd, same.symm⟩)

/-- Declarations that were not read may be stored under new ids. -/
theorem Batch.changes {next : DeclId} {declarations : List Declaration}
    (batch : s.Batch next declarations) (wf : s.WellFormed) (made : ∀ d ∈ declarations, d.Made) :
    ReflTransGen (Changes locals) s (s.receive next declarations) := by
  refine .head (.loaded (adds_upTo batch.next_le)) ?_
  refine changes_of_insertAll made batch.nodup (fun d hd => ?_) batch.allocated
  have new := batch.new d hd
  refine Option.eq_none_iff_forall_ne_some.2 fun other stored => ?_
  have old : d.id.number < s.next.number := wf.allocated stored
  omega

end Store

/-! ## Questions -/

/-- A relation of stores of which some are good that holds when the members of a class are read and
when the fake overrides of a result are stored. -/
structure StoreRule (Good : Store → Prop) (Reaches : Store → Store → Prop) : Prop where
  wellFormed {s} : Good s → s.WellFormed
  extends' {s t} : Reaches s t → s.Extends t
  refl s : Reaches s s
  trans {s t u} : Reaches s t → Reaches t u → Reaches s u
  read {s t id r} : Good s → Gives (classMembers id) s r t → Good t ∧ Reaches s t
  commit {s id data synthesis next} :
    Good s → s.IsClass id data → OverrideSynthesis.Ready synthesis id s next →
    (∀ fake ∈ synthesis.pending, fake.isCallable = true) →
    Good (s.receive next synthesis.pending) ∧ Reaches s (s.receive next synthesis.pending)

namespace StoreRule

variable {Good : Store → Prop} {Reaches : Store → Store → Prop} (rule : StoreRule Good Reaches)
  {w w' : Workspace}
include rule

theorem computeFrom (good : Good w.store) {id : DeclId} {data : ClassData}
    (isClass : w.store.IsClass id data) {supertypes : ClassData} {members : List SupertypeMembers}
    {r : Except SymbolError OverrideSynthesis}
    (made : Gives (computeFrom id supertypes members) w r w') :
    Good w'.store ∧ Reaches w.store w'.store := by
  rcases Workspace.gives_computeFrom_withResult (rule.wellFormed good) made with
    ⟨_, _, store, -, asked, rfl⟩ | ⟨_, store, synthesis, next, asked, -, ready, callable, -, rfl⟩
  · exact rule.read good asked
  · obtain ⟨good', reaches⟩ := rule.read good asked
    obtain ⟨data', isClass', -⟩ := (rule.extends' reaches).isClass isClass
    obtain ⟨good'', reaches'⟩ := rule.commit good' isClass' ready callable
    exact ⟨good'', rule.trans reaches reaches'⟩

/-- Such a relation holds of every resolution, whether it succeeds or fails. -/
theorem resolution : ResolutionRule
    (fun _ w _ _ w' => Good w.store → Good w'.store ∧ Reaches w.store w'.store)
    (fun _ w _ _ w' => Good w.store → Good w'.store ∧ Reaches w.store w'.store) where
  failed good := ⟨good, rule.refl _⟩
  kept _ _ good := ⟨good, rule.refl _⟩
  blocked _ _ _ supers good := supers good
  computed stored _ _ supers made good := by
    obtain ⟨good', reaches⟩ := supers good
    obtain ⟨data, isClass, -⟩ := (rule.extends' reaches).isClass stored
    obtain ⟨good'', reaches'⟩ := rule.computeFrom good' isClass made
    exact ⟨good'', rule.trans reaches reaches'⟩
  none good := ⟨good, rule.refl _⟩
  skipped _ others good := others good
  stopped _ first good := first good
  halted _ first others good := by
    obtain ⟨good', reaches⟩ := first good
    obtain ⟨good'', reaches'⟩ := others good'
    exact ⟨good'', rule.trans reaches reaches'⟩
  found _ first others good := by
    obtain ⟨good', reaches⟩ := first good
    obtain ⟨good'', reaches'⟩ := others good'
    exact ⟨good'', rule.trans reaches reaches'⟩

/-- Such a relation holds of every question, whatever results are kept. -/
theorem ask (good : Good w.store) {query : ClassQuery} {r : Except SymbolError Answer}
    (gives : Gives query.ask w r w') :
    Good w'.store ∧ Reaches w.store w'.store := by
  rcases query.gives_ask_cases gives with ⟨_, store, asked, rfl⟩ | ⟨_, resolved⟩
  · exact rule.read good asked
  · exact rule.resolution.effectiveSynthesis resolved good

end StoreRule

namespace Store

variable {locals : PropertyRecord → Prop} {s t : Store}

/-- A question is a sequence of changes. -/
theorem storeRule_changes :
    StoreRule Anchored fun s t => s.Extends t ∧ ReflTransGen (Changes locals) s t where
  wellFormed good := good.toWellFormed
  extends' reaches := reaches.1
  refl s := ⟨.refl s, .refl⟩
  trans first later := ⟨first.1.trans later.1, first.2.trans later.2⟩
  read anchored asked := by
    have adds : ReflTransGen (Adds locals) _ _ := adds_of_classMembers anchored asked
    obtain ⟨anchored', wider⟩ := anchored.of_additions adds
    exact ⟨anchored', wider, changes_of_additions adds⟩
  commit anchored _ ready _ := by
    have changes : ReflTransGen (Changes locals) _ _ :=
      ready.batch.changes anchored.toWellFormed fun fake hf => by
      obtain ⟨other, origin, -⟩ := ready.made fake hf
      exact ⟨by simp [origin], fun data hc => by cases other.symm.trans hc⟩
    obtain ⟨anchored', wider⟩ := anchored.of_changes changes
    exact ⟨anchored', wider, changes⟩

/-! ## Operations -/

/-- One operation on a store, whatever it gives, in which symbol tables among `tables` are read.
Chains are made of stored declarations, and no declaration is replaced. -/
inductive Step (tables : SymbolTable → Prop) (s s' : Store) : Prop
  | all (table : SymbolTable) (r : Except SymbolError LoadedModule) :
    tables table → Gives (loadAll table) s r s' →
      Step tables s s'
  | module (table : SymbolTable) (r : Except SymbolError DeclId) :
    tables table → Gives (loadModule table) s r s' →
      Step tables s s'
  | fragment (table : SymbolTable) (module : DeclId) (name : String) (r : Except SymbolError DeclId)
      : tables table →
      Gives (loadFragment table module name) s r s' → Step tables s s'
  | classes (table : SymbolTable) (fragment : Declaration) (r : Except SymbolError (List DeclId)) :
    tables table →
      s.get? fragment.id = some fragment → Gives (loadTopLevelClasses table fragment) s r s' →
      Step tables s s'
  | members (id : DeclId) (r : Except SymbolError (List DeclId)) :
    Gives (classMembers id) s r s' → Step tables s s'
  | path (fragment : LoadedFragment) (path : String) (r : Except SymbolError DeclId) :
      Gives (findMemberPath fragment path) s r s' → Step tables s s'
  | inside (table : SymbolTable) (target : RecordRef) (chain : List Declaration)
      (r : Except SymbolError DeclId) :
      tables table → (∀ declaration ∈ chain, s.get? declaration.id = some declaration) →
      Gives (resolveLocal table target chain) s r s' → Step tables s s'
  | ask (query : ClassQuery) (effective effective' : EffectiveMembers)
      (r : Except SymbolError Answer) :
      Gives query.ask ⟨s, effective⟩ r ⟨s', effective'⟩ → Step tables s s'
  | reserve : s' = s.reserve → Step tables s s'
  | insert (declaration : Declaration) : declaration.Made → s.get? declaration.id = none →
      declaration.id.number < s.next.number → s' = s.insert declaration → Step tables s s'

variable {tables : SymbolTable → Prop}

/-- An operation is a sequence of changes. Local variables are read from property records that the
symbol tables mark so. -/
theorem Anchored.changes_of_step (h : s.Anchored)
    (allowed : ∀ table, tables table →
      ∀ target record, table.record target = .ok (.property record) → record.usedAsVariable = true →
      locals record)
    (step : Step tables s t) : ReflTransGen (Changes locals) s t := by
  cases step with
  | all table r among loaded => exact changes_of_additions (adds_of_loadAll h loaded)
  | module table r among loaded => exact .single (.loaded (adds_of_loadModule loaded))
  | fragment table module name r among loaded =>
    rcases loadFragment_cases loaded with ⟨_, -, rfl⟩ | ⟨data, -, rfl⟩
    · exact .refl
    · refine Batch.changes (batch_singleton rfl (by simp [Declaration.class?])) h.toWellFormed
        fun d hd => ?_
      obtain rfl := List.mem_singleton.1 hd
      exact ⟨by simp, fun data hc => by cases hc⟩
  | classes table fragment r among stored loaded =>
    exact .single (.loaded (adds_of_loadTopLevelClasses stored loaded))
  | members id r asked => exact changes_of_additions (adds_of_classMembers h asked)
  | path fragment path r followed => exact changes_of_additions (adds_of_findMemberPath h followed)
  | inside table target chain r among registered resolved =>
    exact changes_of_additions
      (adds_of_resolveLocal h registered (allowed table among target) resolved)
  | ask query effective effective' r gives => exact (storeRule_changes.ask h gives).2.2
  | reserve e => exact e ▸ .single (.loaded (adds_upTo (Nat.le_succ _)))
  | insert declaration made free allocated e => exact e ▸ .single (.made made free allocated)

/-- Operations keep a store anchored, and are a sequence of changes. -/
theorem Anchored.of_steps (h : s.Anchored) (locals : PropertyRecord → Prop)
    (allowed : ∀ table, tables table →
      ∀ target record, table.record target = .ok (.property record) → record.usedAsVariable = true →
      locals record)
    (run : ReflTransGen (Step tables) s t) : t.Anchored ∧ ReflTransGen (Changes locals) s t := by
  induction run with
  | refl => exact ⟨h, .refl⟩
  | tail _ step ih =>
    obtain ⟨anchored, changes⟩ := ih
    have further := anchored.changes_of_step allowed step
    exact ⟨(anchored.of_changes further).1, changes.trans further⟩

end Store

end ClassSymbols
