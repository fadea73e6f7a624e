import ClassSymbols.Proofs.Data.Grouping
import ClassSymbols.Proofs.Loading.Contexts
import ClassSymbols.Proofs.Runs.Changes

/-!
# Types refer to parameters around them

A type is read in the context of its declaration, where type parameters are found by number or by
name in the frames of the declarations around it. So whatever type parameter a stored type refers to
is declared by the declaration that the type belongs to, or by one that contains it. A local
variable has no type parameters, so the property record that it is read from must not have any.

## Main definitions

* `Declaration.types` — the types that a declaration is made of.
* `SymbolTable.Plain` — tables in which local variables have no type parameters.
* `Store.Brings` — whether a type parameter is declared by a declaration or by one around it.
* `Store.Closed` — stores in which the types that were read refer to no other type parameters.

## Main statements

* `ScopeContext.Reads.seesAll` — the types of what is read refer to parameters in scope.
* `Store.Closed.of_change` — changes keep a store closed.
* `closed_of_steps` — the types that were read are closed.
-/

namespace ClassSymbols

open Relation Store

/-! ## The types of a declaration -/

/-- The type of a value parameter, and that of its elements. -/
def ValueParameter.types (parameter : ValueParameter) : List Ty :=
  parameter.type :: parameter.varargElement.toList

/-- The types that a declaration is made of: the bounds of its type parameters, its supertypes, its
receiver, those of its value parameters, and the type of what it gives. -/
def Declaration.types (declaration : Declaration) : List Ty :=
  declaration.typeParameters.flatMap (·.upperBounds) ++
    match declaration.kind with
    | .classifier data => data.supertypes
    | .function data =>
      data.receiver.toList ++ data.valueParameters.flatMap (·.types) ++ [data.returnType]
    | .constructor data => data.valueParameters.flatMap (·.types) ++ [data.returnType]
    | .property data => data.receiver.toList ++ [data.type]
    | .localVariable data => [data.type]
    | .module | .package _ | .holder _ => []

theorem Declaration.types_unread (declaration : Declaration) :
    declaration.unread.types = declaration.types := by
  obtain ⟨id, name, container, annotations, origin, kind⟩ := declaration
  cases kind <;> rfl

theorem Declaration.types_eq_nil (declaration : Declaration) (outer : declaration.isInner = false) :
    declaration.types = [] := by
  obtain ⟨id, name, container, annotations, origin, kind⟩ := declaration
  cases kind <;> first | rfl | cases outer

/-! ## What is in scope -/

namespace ScopeContext

variable {context : ScopeContext} {ref : ParameterRef}

def SeesAll (context : ScopeContext) (types : List Ty) : Prop :=
  ∀ type ∈ types, ∀ ref ∈ type.parameters, context.Sees ref

theorem seesAll_append {types types' : List Ty} :
    context.SeesAll (types ++ types') ↔ context.SeesAll types ∧ context.SeesAll types' := by
  simp only [SeesAll, List.mem_append, or_imp, forall_and]

theorem seesAll_singleton {type : Ty} :
    context.SeesAll [type] ↔ ∀ ref ∈ type.parameters, context.Sees ref := by
  simp [SeesAll]

theorem sees_withParameters {parameters : List TypeParameter} :
    (context.withParameters parameters).Sees ref ↔
    (∃ parameter ∈ parameters, parameter.asRef = ref) ∨ context.Sees ref := by
  simp only [Sees, withParameters, ParameterScope.flatten_push, List.mem_append, or_and_right,
    exists_or]

theorem sees_enter {id : DeclId} {parameters : List TypeParameter} {types : Option TypeTable} :
    (context.enter id parameters types).Sees ref ↔
      (∃ parameter ∈ parameters, parameter.asRef = ref) ∨ context.Sees ref := sees_withParameters

theorem sees_inside {declaration : Declaration} : (context.inside declaration).Sees ref ↔
    (∃ parameter ∈ declaration.typeParameters, parameter.asRef = ref) ∨ context.Sees ref :=
  sees_enter

theorem seesAll_of_mapM {refs : List TypeRef} {types : List Ty}
    (read : refs.mapM context.readType = .ok types) :
    context.SeesAll types := by
  intro type ht
  obtain ⟨typeRef, -, read⟩ := exists_mem_of_forall₂ (mapM_eq_ok_iff.1 read) ht
  exact sees_of_readType read

theorem seesAll_of_option {typeRef : Option TypeRef} {type : Option Ty}
    (read : typeRef.mapM context.readType = .ok type) : context.SeesAll type.toList := by
  cases typeRef with
  | none =>
    obtain rfl := Except.ok.inj read
    exact fun _ ht => nomatch ht
  | some typeRef =>
    rw [Option.mapM_some] at read
    cases found : context.readType typeRef with
    | error e => simp [found] at read
    | ok type =>
      rw [found] at read
      obtain rfl := Except.ok.inj read
      exact seesAll_singleton.2 (sees_of_readType found)

/-- The bounds of type parameters may refer to any of them. -/
theorem seesAll_of_readTypeParameters {owner : DeclId} {records : List TypeParameterRecord}
    {parameters : List TypeParameter}
    (read : Site.readTypeParameters context owner records = .ok parameters) :
    (context.withParameters parameters).SeesAll (parameters.flatMap (·.upperBounds)) := by
  obtain ⟨heads, read, bounds⟩ := Except.bind_eq_ok_iff.1 read
  have steps := mapM_eq_ok_iff.1 bounds
  -- bounds are added to the parameters that are in scope meanwhile
  have kept : parameters.map (·.asRef) = heads.map (·.asRef) := by
    have long : heads.length ≤ records.length := by
      simpa using (mapM_eq_ok_iff.1 read).length_eq.ge
    have same : List.Forall₂ (fun numbered parameter => numbered.1.asRef = parameter.asRef)
      (heads.zip records)
        parameters := by
      refine steps.imp fun numbered parameter made => ?_
      obtain ⟨types, -, made⟩ := Except.bind_eq_ok_iff.1 made
      obtain rfl := Except.ok.inj made
      rfl
    have refs : (heads.zip records).map (TypeParameter.asRef ∘ Prod.fst) =
        parameters.map (·.asRef) := by
      rw [← List.forall₂_eq_eq_eq, List.forall₂_map_left_iff, List.forall₂_map_right_iff]
      exact same
    rw [← refs, ← List.map_map, List.map_fst_zip long]
  intro type ht ref hr
  obtain ⟨parameter, hp, hb⟩ := List.mem_flatMap.1 ht
  obtain ⟨numbered, -, made⟩ := exists_mem_of_forall₂ steps hp
  obtain ⟨types, read, made⟩ := Except.bind_eq_ok_iff.1 made
  obtain rfl := Except.ok.inj made
  refine sees_withParameters.2
    ((sees_withParameters.1 (seesAll_of_mapM read type hb ref hr)).imp_left ?_)
  rintro ⟨head, hh, rfl⟩
  exact List.mem_map.1 (kept ▸ List.mem_map_of_mem hh)

theorem seesAll_of_readValueParameters {records : List ValueParameterRecord}
    {parameters : List ValueParameter}
    (read : records.mapM (Site.readValueParameter context) = .ok parameters) :
    context.SeesAll (parameters.flatMap (·.types)) := by
  intro type ht
  obtain ⟨parameter, hp, ht⟩ := List.mem_flatMap.1 ht
  obtain ⟨record, -, made⟩ := exists_mem_of_forall₂ (mapM_eq_ok_iff.1 read) hp
  simp only [Site.readValueParameter, Except.bind_eq_ok_iff] at made
  obtain ⟨_, -, own, typed, element, read, _, -, made⟩ := made
  obtain rfl := Except.ok.inj made
  rcases List.mem_cons.1 ht with rfl | ht
  · exact sees_of_readType typed
  · exact seesAll_of_option read type ht

end ScopeContext

/-! ## What is read -/

section Reads

variable {locals : PropertyRecord → Prop} {context : ScopeContext} {path : String} {id : DeclId}
  {declaration : Declaration}

theorem Site.seesAll_of_readFunction {record : FunctionRecord}
    (h : readFunction ⟨context, path⟩ id record = .ok declaration) :
    (context.inside declaration).SeesAll declaration.types := by
  simp only [readFunction, reporting_eq_ok_iff, Except.bind_eq_ok_iff] at h
  obtain ⟨_, -, parameters, read, receiver, received, values, taken, type, typed, _, -, h⟩ := h
  obtain rfl := Except.ok.inj h
  have all : (context.withParameters parameters).SeesAll (parameters.flatMap (·.upperBounds) ++
      (receiver.toList ++ values.flatMap (·.types) ++ [type])) := by
    simp only [ScopeContext.seesAll_append, ScopeContext.seesAll_singleton]
    exact ⟨ScopeContext.seesAll_of_readTypeParameters read,
      ⟨ScopeContext.seesAll_of_option received, ScopeContext.seesAll_of_readValueParameters taken⟩,
      ScopeContext.sees_of_readType typed⟩
  exact all

theorem Site.seesAll_of_readProperty {record : PropertyRecord}
    (h : readProperty ⟨context, path⟩ id record = .ok declaration) :
    (context.inside declaration).SeesAll declaration.types ∧
    declaration.asVariable.types ⊆ declaration.types ∧
      (record.typeParameters = [] → declaration.typeParameters = []) := by
  simp only [readProperty, reporting_eq_ok_iff, Except.bind_eq_ok_iff] at h
  obtain ⟨_, -, parameters, read, receiver, received, type, typed, _, -, h⟩ := h
  obtain rfl := Except.ok.inj h
  have all : (context.withParameters parameters).SeesAll (parameters.flatMap (·.upperBounds) ++
      (receiver.toList ++ [type])) := by
    simp only [ScopeContext.seesAll_append, ScopeContext.seesAll_singleton]
    exact ⟨ScopeContext.seesAll_of_readTypeParameters read, ScopeContext.seesAll_of_option received,
      ScopeContext.sees_of_readType typed⟩
  refine ⟨all, ?_, fun none => ?_⟩
  · simp [Declaration.types, Declaration.asVariable, Declaration.typeParameters]
  · rw [none] at read
    exact (Except.ok.inj read).symm

theorem Site.seesAll_of_readClass {record : ClassRecord}
    (h : readClass ⟨context, path⟩ id record = .ok declaration) :
    (context.inside declaration).SeesAll declaration.types := by
  simp only [readClass, readClassData, reporting_eq_ok_iff, Except.bind_eq_ok_iff] at h
  obtain ⟨classId, -, data, ⟨parameters, read, supertypes, inherited, made⟩, _, -, h⟩ := h
  obtain rfl := Except.ok.inj made
  obtain rfl := Except.ok.inj h
  have all :
      ((context.enter id [] (some (.ofRecord record.typeTable))).withParameters parameters).SeesAll
        (parameters.flatMap (·.upperBounds) ++ withRoot classId supertypes) := by
    refine ScopeContext.seesAll_append.2 ⟨ScopeContext.seesAll_of_readTypeParameters read, ?_⟩
    unfold withRoot
    split
    · exact ScopeContext.seesAll_singleton.2 fun _ hr => absurd hr List.not_mem_nil
    · exact ScopeContext.seesAll_of_mapM inherited
  rwa [ScopeContext.enter_nil_withParameters] at all

/-- The type of an instance of a class refers to the parameters of the class. -/
theorem ClassData.exists_parameter_of_mem_selfType {data : ClassData} {ref : ParameterRef}
    (h : ref ∈ data.selfType.parameters) :
    ∃ parameter ∈ data.typeParameters, parameter.asRef = ref := by
  rcases Ty.mem_parameters_mk.1 h with hr | ⟨variance, argument, ha, hr⟩
  · cases hr
  · obtain ⟨parameter, hp, e⟩ := List.mem_map.1 ha
    obtain ⟨-, rfl⟩ := TypeArgument.projected.inj e
    exact ⟨parameter, hp, (List.mem_singleton.1 hr).symm⟩

theorem Declaration.typeParameters_of_class? {data : ClassData}
    (hc : declaration.class? = some data) :
    declaration.typeParameters = data.typeParameters := by
  obtain ⟨id, name, container, annotations, origin, kind⟩ := declaration
  cases kind with
  | classifier other => exact congrArg ClassData.typeParameters (Option.some.inj hc)
  | _ => cases hc

/-- A constructor gives an instance of its class, the parameters of which are in scope. -/
theorem Site.seesAll_of_constructorReader {base : Store} (wf : base.WellFormed)
    (inside : base.Inside context.owner context) {record : ConstructorRecord}
    (h : constructorReader ⟨context, path⟩ base record id = .ok declaration) :
    (context.inside declaration).SeesAll declaration.types := by
  simp only [constructorReader, readConstructor, reporting_eq_ok_iff, Except.bind_eq_ok_iff] at h
  obtain ⟨⟨owner, data⟩, owned, values, taken, _, -, h⟩ := h
  obtain rfl := Except.ok.inj h
  obtain ⟨rfl, outer, stored, hc⟩ := (ownerClass_eq_ok_iff wf).1 owned
  have self : ∀ ref ∈ data.selfType.parameters, context.Sees ref := by
    intro ref hr
    have declared := ClassData.exists_parameter_of_mem_selfType hr
    generalize context.owner = owner at inside stored
    cases inside with
    | fragment stored' package =>
      obtain rfl := Option.some.inj (stored.symm.trans stored')
      have inner := Declaration.isInner_of_class? hc
      simp [Declaration.isInner, package] at inner
    | inner stored' _ _ _ =>
      obtain rfl := Option.some.inj (stored.symm.trans stored')
      rw [← Declaration.typeParameters_of_class? hc] at declared
      exact ScopeContext.sees_inside.2 (.inl declared)
  intro type ht ref hr
  refine ScopeContext.sees_inside.2 (.inr ?_)
  rcases List.mem_append.1 (ht : type ∈
    [] ++ (values.flatMap (·.types) ++ [data.selfType])) with ht | ht
  · cases ht
  · rcases List.mem_append.1 ht with ht | ht
    · exact ScopeContext.seesAll_of_readValueParameters taken type ht ref hr
    · obtain rfl := List.mem_singleton.1 ht
      exact self ref hr

/-- The types of what is read refer to type parameters in scope, if records of local variables have
no type parameters. -/
theorem ScopeContext.Reads.seesAll {base : Store} (wf : base.WellFormed)
    (inside : base.Inside context.owner context)
    (plain : ∀ record, locals record → record.typeParameters = [])
    (h : context.Reads locals base declaration) :
    (context.inside declaration).SeesAll declaration.types := by
  cases h with
  | @member path record _ made =>
    cases record with
    | constructor record => exact Site.seesAll_of_constructorReader wf inside made
    | function record => exact Site.seesAll_of_readFunction made
    | property record => exact (Site.seesAll_of_readProperty made).1
    | classifier record => exact Site.seesAll_of_readClass made
  | @localVariable path record declaration among made =>
    obtain ⟨sees, fewer, none⟩ := Site.seesAll_of_readProperty made
    intro type ht ref hr
    have found := sees_inside.1 (sees type (fewer ht) ref hr)
    rw [none (plain record among)] at found
    exact sees_inside.2 (.inr (found.resolve_left (by simp)))

end Reads

/-! ## Closed stores -/

namespace Store

def ContainedIn (store : Store) (id outer : DeclId) : Prop :=
  ∃ declaration, store.get? id = some declaration ∧ declaration.container = some outer

/-- Whether a type parameter is declared by a declaration or by one that containers lead to from
it. -/
def Brings (store : Store) (id : DeclId) (parameter : TypeParameter) : Prop :=
  ∃ outer declaration, ReflTransGen store.ContainedIn id outer ∧
    store.get? outer = some declaration ∧
    parameter ∈ declaration.typeParameters

/-- Whether the types of the declarations that were read refer only to type parameters that are
declared by them or around them. -/
def Closed (store : Store) : Prop :=
  ∀ {id declaration}, store.get? id = some declaration → declaration.origin = .deserialized →
    ∀ type ∈ declaration.types,
      ∀ ref ∈ type.parameters, ∃ parameter, store.Brings id parameter ∧ parameter.asRef = ref

variable {locals : PropertyRecord → Prop} {s t : Store} {id : DeclId}

theorem Brings.mono (wider : s.Extends t) {parameter : TypeParameter} (h : s.Brings id parameter) :
    t.Brings id parameter := by
  obtain ⟨outer, declaration, leads, stored, hp⟩ := h
  obtain ⟨declaration', stored', same⟩ := wider.kept stored
  refine ⟨outer, declaration', leads.lift (fun x => x) ?_, stored', ?_⟩
  · rintro a b ⟨d, hd, inside⟩
    obtain ⟨d', hd', same⟩ := wider.kept hd
    exact ⟨d', hd', (Declaration.congr_unread Declaration.container_unread same).trans inside⟩
  · rwa [Declaration.congr_unread Declaration.typeParameters_unread same]

/-- What is in scope inside a declaration is declared by it or around it. -/
theorem Inside.exists_brings {context : ScopeContext} (h : s.Inside id context) {ref : ParameterRef}
    (sees : context.Sees ref) : ∃ parameter, s.Brings id parameter ∧ parameter.asRef = ref := by
  induction h with
  | fragment _ _ =>
    obtain ⟨_, hp, -⟩ := sees
    cases hp
  | @inner id container declaration context stored inner inside _ ih =>
    rcases ScopeContext.sees_inside.1 sees with ⟨parameter, hp, e⟩ | sees
    · exact ⟨parameter, ⟨id, declaration, .refl, stored, hp⟩, e⟩
    · obtain ⟨parameter, ⟨outer, d, leads, hd, hp⟩, e⟩ := ih sees
      exact ⟨parameter, ⟨outer, d, .head ⟨declaration, stored, inside⟩ leads, hd, hp⟩, e⟩

/-- A change keeps a store closed. -/
theorem Closed.of_change (h : s.Closed) (anchored : s.Anchored)
    (plain : ∀ record, locals record → record.typeParameters = []) (change : Changes locals s t) :
    t.Closed := by
  have wider := (anchored.of_change change).2
  intro id declaration stored origin
  -- what was stored before stays closed
  have kept {d : Declaration} (old : s.get? id = some d) (same : declaration.unread = d.unread) :
      ∀ type ∈ declaration.types, ∀ ref ∈ type.parameters,
        ∃ parameter, t.Brings id parameter ∧ parameter.asRef = ref := by
    rw [Declaration.congr_unread Declaration.types_unread same]
    intro type ht ref hr
    have read := (Declaration.congr_unread Declaration.origin_unread same).symm.trans origin
    obtain ⟨parameter, brings, e⟩ := h old read type ht ref hr
    exact ⟨parameter, brings.mono wider, e⟩
  cases change with
  | made made free allocated =>
    rw [get?_insert] at stored
    split at stored
    · obtain rfl := Option.some.inj stored
      exact absurd origin made.origin
    · exact kept stored rfl
  | loaded adds =>
    cases adds with
    | receive batch admits =>
      rcases get?_receive_cases stored with old | ⟨hd, rfl⟩
      · exact kept old rfl
      cases admits declaration hd with
      | module module _ =>
        have none := declaration.types_eq_nil (by simp [Declaration.isInner, module])
        simp [none]
      | fragment _ _ package _ _ _ =>
        obtain ⟨data, package⟩ := Option.isSome_iff_exists.1 package
        have none := declaration.types_eq_nil (by simp [Declaration.isInner, package])
        simp [none]
      | read context outer read =>
        have within := Declaration.Within.of_reads anchored.toWellFormed read
        have inside := Inside.inner stored within.inner within.container (outer.mono wider.kept)
        intro type ht ref hr
        exact inside.exists_brings (read.seesAll anchored.toWellFormed outer plain type ht ref hr)
    | note at_class hk hr unknown _ =>
      obtain ⟨d, old, same⟩ := exists_get?_of_setMembers at_class hk hr stored
      exact kept old same

end Store

/-! ## Runs -/

/-- Whether a record can be read as a local variable without losing type parameters. -/
def LocalRecord.isPlain : LocalRecord → Bool
  | .property record => !record.usedAsVariable || record.typeParameters.isEmpty
  | _ => true

/-- Whether no property record that is to be read as a local variable has type parameters. -/
def SymbolTable.Plain (table : SymbolTable) : Prop :=
  ∀ entry ∈ table.fragments.entries, ∀ record ∈ entry.2.records, record.isPlain = true

instance (table : SymbolTable) : Decidable table.Plain :=
  inferInstanceAs (Decidable (∀ entry ∈ table.fragments.entries,
    ∀ record ∈ entry.2.records, record.isPlain = true))

theorem SymbolTable.Plain.typeParameters_eq_nil {table : SymbolTable} (h : table.Plain)
    {target : RecordRef} {record : PropertyRecord}
    (found : table.record target = .ok (.property record))
    (isVariable : record.usedAsVariable = true) : record.typeParameters = [] := by
  obtain ⟨fragment, opened, found⟩ := Except.bind_eq_ok_iff.1 found
  have entry : (target.fragment, fragment) ∈ table.fragments.entries := by
    rw [OrderedMap.mem_entries_iff]
    unfold SymbolTable.fragment at opened
    split at opened
    · next here => rw [here, Except.ok.inj opened]
    · cases opened
  split at found
  · next listed =>
    obtain rfl := Except.ok.inj found
    have plain := h _ entry _ (List.mem_of_getElem? listed)
    simpa [LocalRecord.isPlain, isVariable] using plain
  · cases found

/-- Let operations be carried out on the empty store, in any order, with failures or without, and
let no property record that is to be read as a local variable have type parameters. Then every type
parameter that a type of a declaration refers to that was read is, as a type, a parameter of the
declaration or of one that containers lead to from it. -/
theorem closed_of_steps {tables : SymbolTable → Prop} (plain : ∀ table, tables table → table.Plain)
    {s : Store} (run : ReflTransGen (Store.Step tables) .empty s) {id : DeclId}
    {declaration : Declaration} (stored : s.get? id = some declaration)
    (origin : declaration.origin = .deserialized) :
    ∀ type ∈ declaration.types, ∀ ref ∈ type.parameters,
      ∃ parameter, s.Brings id parameter ∧ parameter.asType = .mk (.parameter ref) [] false := by
  obtain ⟨-, changes⟩ := Anchored.empty.of_steps (fun record => record.typeParameters = [])
    (fun table among _ _ found isVariable =>
      (plain table among).typeParameters_eq_nil found isVariable) run
  have closed : s.Closed := by
    clear run stored
    induction changes with
    | refl => exact fun stored => nomatch stored
    | tail before change ih =>
      exact Closed.of_change ih (Anchored.empty.of_changes before).1 (fun _ none => none) change
  intro type ht ref hr
  obtain ⟨parameter, brings, rfl⟩ := closed stored origin type ht ref hr
  exact ⟨parameter, brings, rfl⟩

/-- A module with a class `Box<T>`, which has a function `f<U>` that gives `U`, and the record of a
local variable of type `Box<U>`. -/
def variableModule : SymbolTable where
  module := "m"
  fragments := .ofList [("p", {
    names := {
      strings := ["Box", "f", "x", "T", "U"]
      qualifiedNames := [{ shortName := 0, kind := .classifier }] }
    types := {}
    classes := [{
      qualifiedName := 0
      typeParameters := [{ id := 0, name := 3 }]
      functions := [{
        name := 1
        typeParameters := [{ id := 1, name := 4 }]
        returnType := .inline (.mk (.typeParameter 1) [] false) }] }]
    records := [.property {
      name := 2
      returnType := .inline (.mk (.className 0)
        [.mk (.varying .invariant) (some (.inline (.mk (.typeParameter 1) [] false)))] false)
      usedAsVariable := true }] })]

/-- The local variable is resolved in the function, whose parameter `U` its type refers to. -/
theorem closed_of_steps_of_variable :
    let s := (Store.empty.after (loadAll variableModule)).after (classMembers ⟨3⟩)
    ∃ chain, s.ownershipChain ⟨4⟩ = .ok chain ∧
      let t := s.after (resolveLocal variableModule ⟨"p", 0⟩ chain)
      ∃ declaration type parameter, t.get? ⟨5⟩ = some declaration ∧ declaration.types = [type] ∧
        t.Brings ⟨5⟩ parameter ∧ parameter.asType = .ofParameter ⟨4⟩ 0 "U" := by
  intro s
  have before : ReflTransGen (Store.Step (· = variableModule)) .empty s := by
    obtain ⟨r, loaded⟩ := Store.exists_gives_after .empty (loadAll variableModule)
    obtain ⟨r', read⟩ :=
    Store.exists_gives_after (Store.empty.after (loadAll variableModule)) (classMembers ⟨3⟩)
    exact .tail (.single (.all variableModule r rfl loaded)) (.members ⟨3⟩ r' read)
  obtain ⟨chain, leads⟩ : ∃ chain, s.ownershipChain ⟨4⟩ = .ok chain := ⟨_, rfl⟩
  refine ⟨chain, leads, ?_⟩
  intro t
  obtain ⟨anchored, -⟩ :=
    Anchored.empty.of_steps (fun _ => True) (fun _ _ _ _ _ _ => trivial) before
  have run : ReflTransGen (Store.Step (· = variableModule)) .empty t := by
    obtain ⟨r, resolved⟩ := s.exists_gives_after (resolveLocal variableModule ⟨"p", 0⟩ chain)
    obtain ⟨chained, -, -⟩ := ownershipChain_eq_ok_iff.1 leads
    exact .tail before
      (.inside variableModule ⟨"p", 0⟩ chain r rfl (chained.stored anchored.keyed) resolved)
  have plain : ∀ table, table = variableModule → table.Plain := by
    rintro _ rfl
    decide
  obtain ⟨declaration, stored, origin, type, single, refs⟩ :
      ∃ declaration, t.get? ⟨5⟩ = some declaration ∧
        declaration.origin = .deserialized ∧ ∃ type, declaration.types = [type] ∧
          (⟨⟨4⟩, 0, "U"⟩ : ParameterRef) ∈ type.parameters := by
    obtain rfl : _ = chain := Except.ok.inj leads
    exact ⟨_, rfl, rfl, _, rfl, by decide⟩
  obtain ⟨parameter, brings, same⟩ :=
    closed_of_steps plain run stored origin type (by simp [single]) _ refs
  exact ⟨declaration, type, parameter, stored, single, brings, same⟩

end ClassSymbols
