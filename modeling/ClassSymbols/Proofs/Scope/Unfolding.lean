import ClassSymbols.Proofs.Data.Related
import ClassSymbols.Proofs.Data.Traversal
import ClassSymbols.Proofs.Scope.Towers
import ClassSymbols.Scope.Types
import Mathlib.Logic.Relation
import Mathlib.Order.WellFounded

/-!
# Unfoldings of stored types

The entries of a type table may refer to one another, in a cycle too, so a stored type stands for a
tree that need not be finite. Where it is finite and nothing is missing in it, it is a type, the
unfolding of the stored one. To read a stored type is to unfold it down to a limited depth.

## Main definitions

* `Ty.nesting` — how many levels of arguments there are below a type.
* `ScopeContext.Unfolds` — the unfolding of a stored type, without a limit.
* `ScopeContext.Endless`, `ScopeContext.Faulty` — stored types without an unfolding.
* `ScopeContext.Inlines` — references in which table entries stand in the place of their numbers.

## Main statements

* `ScopeContext.readWithin_eq_ok_iff` — reading finds the unfoldings that are not too deep.
* `ScopeContext.exists_unfolds_iff` — which stored types have an unfolding.
* `ScopeContext.readWithin_inlined` — reading does not tell an entry from its number.
* `ScopeContext.readType_exact` — the types that references stand for.
-/

namespace ClassSymbols

open Relation

/-! ## Nesting -/

mutual
def Ty.nesting : Ty → Nat
  | .mk _ arguments _ => TypeArgument.nestingOfList arguments

def TypeArgument.nestingOfList : List TypeArgument → Nat
  | [] => 0
  | argument :: rest => max (TypeArgument.nesting argument) (TypeArgument.nestingOfList rest)

def TypeArgument.nesting : TypeArgument → Nat
  | .star => 0
  | .projected _ type => Ty.nesting type + 1
end

theorem TypeArgument.nestingOfList_le_iff {arguments : List TypeArgument} {bound : Nat} :
    nestingOfList arguments ≤ bound ↔ ∀ argument ∈ arguments, argument.nesting ≤ bound := by
  induction arguments with
  | nil => simp [nestingOfList]
  | cons argument rest ih => simp [nestingOfList, ih]

theorem Ty.nesting_mk_lt_iff {head : TypeHead} {arguments : List TypeArgument} {nullable : Bool}
    {room : Nat} :
    (Ty.mk head arguments nullable).nesting < room + 1 ↔
      ∀ argument ∈ arguments, argument.nesting ≤ room :=
  Nat.lt_succ_iff.trans TypeArgument.nestingOfList_le_iff

namespace ScopeContext

/-! ## Unfoldings -/

def stored? (context : ScopeContext) : TypeRef → Option TypeRecord
  | .table index => context.types.types[index.toNat]?
  | .inline record => some record

/-- What a classifier stands for: the class of a qualified name, or the first type parameter in
scope that has a number or a name, the innermost frame first. -/
inductive Denotes (context : ScopeContext) : Classifier → TypeHead → Prop
  | className {index : UInt32} {id : ClassId} (named : context.names.classId index = .ok id) :
    Denotes context (.className index) (.classifier id)
  | typeParameter {id : UInt32} {parameter : TypeParameter}
    (found : context.parameters.frames.flatten.find? (·.id == id) = some parameter) :
    Denotes context (.typeParameter id) (.parameter parameter.asRef)
  | typeParameterName {index : UInt32} {name : String} {parameter : TypeParameter}
    (named : context.names.string index = .ok name)
    (found : context.parameters.frames.flatten.find? (·.name == name) = some parameter) :
    Denotes context (.typeParameterName index) (.parameter parameter.asRef)

mutual
/-- The unfolding of a stored type: what its classifier stands for, applied to the unfoldings of its
arguments. -/
inductive Unfolds (context : ScopeContext) : TypeRecord → Ty → Prop
  | mk {classifier : Classifier} {head : TypeHead} {records : List ArgumentRecord}
      {arguments : List TypeArgument} {nullable : Bool} (denotes : context.Denotes classifier head)
      (each : List.Forall₂ (UnfoldsArgument context) records arguments) :
    Unfolds context (.mk classifier records nullable) (.mk head arguments nullable)

/-- The unfolding of a stored argument: a star projection whatever type it has, and otherwise the
unfolding of the type that it must have. -/
inductive UnfoldsArgument (context : ScopeContext) : ArgumentRecord → TypeArgument → Prop
  | star (type : Option TypeRef) : UnfoldsArgument context (.mk .star type) .star
  | projected {variance : Variance} {ref : TypeRef} {record : TypeRecord} {type : Ty}
    (stored : context.stored? ref = some record) (unfolds : Unfolds context record type) :
    UnfoldsArgument context (.mk (.varying variance) (some ref)) (.projected variance type)
end

/-- Whether a stored type has another one for an argument that is not a star projection. -/
inductive Argues (context : ScopeContext) : TypeRecord → TypeRecord → Prop
  | mk {classifier : Classifier} {records : List ArgumentRecord} {nullable : Bool}
      {variance : Variance} {ref : TypeRef} {record : TypeRecord}
      (listed : .mk (.varying variance) (some ref) ∈ records)
      (stored : context.stored? ref = some record) :
    Argues context (.mk classifier records nullable) record

/-- Whether there is no end to the arguments of arguments of a stored type. -/
def Endless (context : ScopeContext) (record : TypeRecord) : Prop :=
  ∃ chain : Nat → TypeRecord, chain 0 = record ∧ ∀ n, context.Argues (chain n) (chain (n + 1))

/-- Whether something is missing in a stored type itself: its classifier stands for nothing, or an
argument that is not a star projection has no type or the number of no entry. -/
inductive Faulty (context : ScopeContext) : TypeRecord → Prop
  | classifier {classifier : Classifier} {records : List ArgumentRecord} {nullable : Bool}
    (nothing : ∀ head, ¬context.Denotes classifier head) :
      Faulty context (.mk classifier records nullable)
  | untyped {classifier : Classifier} {records : List ArgumentRecord} {nullable : Bool}
      {variance : Variance} (listed : .mk (.varying variance) none ∈ records) :
    Faulty context (.mk classifier records nullable)
  | dangling {classifier : Classifier} {records : List ArgumentRecord} {nullable : Bool}
      {variance : Variance} {ref : TypeRef} (listed : .mk (.varying variance) (some ref) ∈ records)
      (dangling : context.stored? ref = none) :
    Faulty context (.mk classifier records nullable)

variable {context : ScopeContext}

/-! ## Reading -/

theorem lookupType_eq_ok_iff {ref : TypeRef} {record : TypeRecord} :
    context.lookupType ref = .ok record ↔ context.stored? ref = some record := by
  cases ref with
  | inline type => simp [lookupType, stored?]
  | table index =>
    rw [lookupType, Except.mapError_eq_ok_iff, TypeTable.get, stored?]
    cases context.types.types[index.toNat]? <;> simp

theorem readClassifier_eq_ok_iff {classifier : Classifier} {type : Ty} :
    context.readClassifier classifier = .ok type ↔
      ∃ head, context.Denotes classifier head ∧ type = .mk head [] false := by
  constructor
  · intro read
    cases classifier with
    | className index =>
      obtain ⟨id, named, made⟩ := Except.bind_eq_ok_iff.1 read
      exact ⟨_, .className (Except.mapError_eq_ok_iff.1 named), (Except.ok.inj made).symm⟩
    | typeParameter id =>
      rw [readClassifier, ParameterScope.find?_eq] at read
      split at read
      · next parameter found => exact ⟨_, .typeParameter found, (Except.ok.inj read).symm⟩
      · cases read
    | typeParameterName index =>
      obtain ⟨name, named, read⟩ := Except.bind_eq_ok_iff.1 read
      rw [ParameterScope.findByName?_eq] at read
      split at read
      · next parameter found =>
        exact ⟨_, .typeParameterName (Except.mapError_eq_ok_iff.1 named) found,
          (Except.ok.inj read).symm⟩
      · cases read
  · rintro ⟨head, denotes, rfl⟩
    cases denotes with
    | className named => exact Except.bind_eq_ok_iff.2 ⟨_, Except.mapError_eq_ok_iff.2 named, rfl⟩
    | typeParameter found =>
      rw [readClassifier, ParameterScope.find?_eq, found]
      rfl
    | typeParameterName named found =>
      refine Except.bind_eq_ok_iff.2 ⟨_, Except.mapError_eq_ok_iff.2 named, ?_⟩
      rw [ParameterScope.findByName?_eq, found]
      rfl

/-- An argument is read as its unfolding if its type is. -/
theorem readArgument_eq_ok_iff {read : TypeRef → Except SymbolError Ty} {room : Nat}
    (reads : ∀ ref type, read ref = .ok type ↔
      ∃ record, context.stored? ref = some record ∧ context.Unfolds record type ∧
      type.nesting < room)
    {record : ArgumentRecord} {argument : TypeArgument} :
    readArgument read record = .ok argument ↔
      context.UnfoldsArgument record argument ∧ argument.nesting ≤ room := by
  match record with
  | .mk .star type =>
    constructor
    · intro h
      obtain rfl := Except.ok.inj h
      exact ⟨.star type, Nat.zero_le room⟩
    · rintro ⟨⟨⟩, -⟩
      rfl
  | .mk (.varying variance) none =>
    constructor
    · exact fun h => nomatch h
    · exact fun h => nomatch h.1
  | .mk (.varying variance) (some ref) =>
    constructor
    · intro h
      cases found : read ref with
      | error e => simp [readArgument, found, Except.map] at h
      | ok type =>
        obtain ⟨record, stored, unfolds, fits⟩ := (reads ref type).1 found
        rw [readArgument, found] at h
        obtain rfl := Except.ok.inj h
        exact ⟨.projected stored unfolds, fits⟩
    · rintro ⟨unfolds, fits⟩
      cases unfolds with
      | projected stored unfolds =>
        rw [readArgument, (reads _ _).2 ⟨_, stored, unfolds, fits⟩]
        rfl

theorem readWithin_succ_eq_ok_iff {room : Nat} {classifier : Classifier}
    {records : List ArgumentRecord} {nullable : Bool} {type : Ty} :
    context.readWithin (room + 1) (.mk classifier records nullable) = .ok type ↔
      ∃ head arguments, type = .mk head arguments nullable ∧ context.Denotes classifier head ∧
        List.Forall₂ (fun record argument =>
          readArgument (fun ref => context.lookupType ref >>= context.readWithin room) record =
            .ok argument)
          records arguments := by
  simp only [readWithin, Except.bind_eq_ok_iff, readClassifier_eq_ok_iff, mapM_eq_ok_iff]
  constructor
  · rintro ⟨_, ⟨head, denotes, rfl⟩, arguments, each, made⟩
    obtain rfl := Except.ok.inj made
    exact ⟨head, arguments, by cases nullable <;> rfl, denotes, each⟩
  · rintro ⟨head, arguments, rfl, denotes, each⟩
    exact ⟨_, ⟨head, denotes, rfl⟩, arguments, each, by cases nullable <;> rfl⟩

/-- Reading a stored type with room for some levels finds its unfolding if that has no more
levels. -/
theorem readWithin_eq_ok_iff {room : Nat} {record : TypeRecord} {type : Ty} :
    context.readWithin room record = .ok type ↔
      context.Unfolds record type ∧ type.nesting < room := by
  induction room generalizing record type with
  | zero => exact iff_of_false (fun h => nomatch h) fun h => absurd h.2 (Nat.not_lt_zero _)
  | succ room ih =>
    obtain ⟨classifier, records, nullable⟩ := record
    have reads (ref : TypeRef) (type : Ty) :
        (context.lookupType ref >>= context.readWithin room) = .ok type ↔
          ∃ record, context.stored? ref = some record ∧ context.Unfolds record type ∧
            type.nesting < room := by
      simp only [Except.bind_eq_ok_iff, lookupType_eq_ok_iff, ih]
    simp only [readWithin_succ_eq_ok_iff, readArgument_eq_ok_iff reads, forall₂_and_right]
    constructor
    · rintro ⟨head, arguments, rfl, denotes, each, fits⟩
      exact ⟨.mk denotes each, Ty.nesting_mk_lt_iff.2 fits⟩
    · rintro ⟨⟨denotes, each⟩, fits⟩
      exact ⟨_, _, rfl, denotes, each, Ty.nesting_mk_lt_iff.1 fits⟩

/-- A stored type has one unfolding at most. -/
theorem Unfolds.unique {record : TypeRecord} {type type' : Ty} (h : context.Unfolds record type)
    (h' : context.Unfolds record type') : type = type' := by
  have roomy : type.nesting < max type.nesting type'.nesting + 1 := by omega
  have roomy' : type'.nesting < max type.nesting type'.nesting + 1 := by omega
  exact Except.ok.inj
    ((readWithin_eq_ok_iff.2 ⟨h, roomy⟩).symm.trans (readWithin_eq_ok_iff.2 ⟨h', roomy'⟩))

/-! ## Stored types without an unfolding -/

/-- The arguments of a stored type unfold to the arguments of its unfolding. -/
theorem Unfolds.exists_of_argues {record other : TypeRecord} {type : Ty}
    (h : context.Unfolds record type) (argues : context.Argues record other) :
    ∃ type', context.Unfolds other type' ∧ type'.nesting < type.nesting := by
  obtain ⟨denotes, each⟩ := h
  obtain ⟨listed, stored⟩ := argues
  obtain ⟨argument, ha, unfolds⟩ := exists_mem_of_forall₂_left each listed
  cases unfolds with
  | @projected _ _ record type' stored' unfolds =>
    obtain rfl := Option.some.inj (stored'.symm.trans stored)
    exact ⟨type', unfolds, TypeArgument.nestingOfList_le_iff.1 le_rfl _ ha⟩

theorem Unfolds.exists_of_reaches {record other : TypeRecord} {type : Ty}
    (h : context.Unfolds record type) (reaches : ReflTransGen context.Argues record other) :
    ∃ type', context.Unfolds other type' := by
  induction reaches with
  | refl => exact ⟨type, h⟩
  | tail _ argues ih =>
    obtain ⟨type', h⟩ := ih
    obtain ⟨type'', h, -⟩ := h.exists_of_argues argues
    exact ⟨type'', h⟩

theorem Unfolds.not_faulty {record : TypeRecord} {type : Ty} (h : context.Unfolds record type) :
    ¬context.Faulty record := by
  obtain ⟨denotes, each⟩ := h
  intro faulty
  cases faulty with
  | classifier nothing => exact nothing _ denotes
  | untyped listed =>
    obtain ⟨_, -, unfolds⟩ := exists_mem_of_forall₂_left each listed
    cases unfolds
  | dangling listed dangling =>
    obtain ⟨_, -, unfolds⟩ := exists_mem_of_forall₂_left each listed
    cases unfolds with
    | projected stored _ => cases dangling.symm.trans stored

theorem Unfolds.not_endless {record : TypeRecord} {type : Ty} (h : context.Unfolds record type) :
    ¬context.Endless record := by
  induction levels : type.nesting using Nat.strong_induction_on generalizing record type with
  | h n ih =>
    rintro ⟨chain, rfl, argues⟩
    obtain ⟨type', h', fewer⟩ := h.exists_of_argues (argues 0)
    exact ih _ (levels ▸ fewer) h' rfl ⟨fun n => chain (n + 1), rfl, fun n => argues (n + 1)⟩

/-- A stored type that is not faulty unfolds if the arguments do that it has. -/
theorem exists_unfolds_of_argues {record : TypeRecord} (sound : ¬context.Faulty record)
    (each : ∀ other, context.Argues record other → ∃ type, context.Unfolds other type) :
    ∃ type, context.Unfolds record type := by
  obtain ⟨classifier, records, nullable⟩ := record
  obtain ⟨head, denotes⟩ : ∃ head, context.Denotes classifier head := by
    by_contra nothing
    exact sound (.classifier (not_exists.1 nothing))
  have unfolds (record : ArgumentRecord) (listed : record ∈ records) :
      ∃ argument, context.UnfoldsArgument record argument := by
    match record with
    | .mk .star type => exact ⟨.star, .star type⟩
    | .mk (.varying variance) none => exact absurd (.untyped listed) sound
    | .mk (.varying variance) (some ref) =>
      cases stored : context.stored? ref with
      | none => exact absurd (.dangling listed stored) sound
      | some other =>
        obtain ⟨type, h⟩ := each other (.mk listed stored)
        exact ⟨.projected variance type, .projected stored h⟩
  obtain ⟨arguments, all⟩ := exists_forall₂ unfolds
  exact ⟨_, .mk denotes all⟩

/-- A stored type has an unfolding unless its arguments have no end or something is missing in
it. -/
theorem exists_unfolds_iff {record : TypeRecord} :
    (∃ type, context.Unfolds record type) ↔
      ¬context.Endless record ∧ ∀ other, ReflTransGen context.Argues record other →
        ¬context.Faulty other := by
  constructor
  · rintro ⟨type, h⟩
    refine ⟨h.not_endless, fun other reaches => ?_⟩
    obtain ⟨type', h'⟩ := h.exists_of_reaches reaches
    exact h'.not_faulty
  · rintro ⟨ends, sound⟩
    have acc : Acc (fun other record => context.Argues record other) record := by
      by_contra descends
      exact ends (not_acc_iff_exists_descending_chain.1 descends)
    -- where the arguments end, types are built from the innermost ones outwards
    induction acc with
    | intro record _ ih =>
      refine exists_unfolds_of_argues (sound record .refl) fun other argues => ih other argues ?_ ?_
      · rintro ⟨chain, rfl, below⟩
        refine ends ⟨fun n => n.casesOn record chain, rfl, fun n => ?_⟩
        cases n with
        | zero => exact argues
        | succ n => exact below n
      · exact fun faulty reaches => sound faulty (.head argues reaches)

/-! ## Inlining -/

mutual
/-- Whether a reference becomes another one when some of the numbers in it are replaced by the
entries of the type table that have them, at any depth and in star projections too. -/
inductive Inlines (context : ScopeContext) : TypeRef → TypeRef → Prop
  | table (index : UInt32) : Inlines context (.table index) (.table index)
  | entry {index : UInt32} {entry record : TypeRecord}
      (stored : context.stored? (.table index) = some entry)
      (within : InlinesRecord context entry record) :
    Inlines context (.table index) (.inline record)
  | inline {record record' : TypeRecord} (within : InlinesRecord context record record') :
    Inlines context (.inline record) (.inline record')

/-- Whether a stored type becomes another one when numbers in its arguments are replaced by table
entries. -/
inductive InlinesRecord (context : ScopeContext) : TypeRecord → TypeRecord → Prop
  | mk {classifier : Classifier} {records records' : List ArgumentRecord} {nullable : Bool}
    (each : List.Forall₂ (InlinesArgument context) records records') :
    InlinesRecord context (.mk classifier records nullable) (.mk classifier records' nullable)

/-- Whether a stored argument becomes another one when numbers in its type are replaced by table
entries. -/
inductive InlinesArgument (context : ScopeContext) : ArgumentRecord → ArgumentRecord → Prop
  | none (projection : Projection) :
    InlinesArgument context (.mk projection none) (.mk projection none)
  | some {projection : Projection} {ref ref' : TypeRef} (within : Inlines context ref ref') :
    InlinesArgument context (.mk projection (some ref)) (.mk projection (some ref'))
end

mutual
/-- No number needs to be replaced. -/
theorem inlines_refl : ∀ ref : TypeRef, context.Inlines ref ref
  | .table index => .table index
  | .inline record => .inline (inlinesRecord_refl record)

theorem inlinesRecord_refl : ∀ record : TypeRecord, context.InlinesRecord record record
  | .mk _ records _ => .mk (inlinesArguments_refl records)

private theorem inlinesArguments_refl : ∀ records : List ArgumentRecord,
    List.Forall₂ context.InlinesArgument records records
  | [] => .nil
  | .mk projection none :: rest => .cons (.none projection) (inlinesArguments_refl rest)
  | .mk _ (some ref) :: rest => .cons (.some (inlines_refl ref)) (inlinesArguments_refl rest)
end

/-- Whether a context is another one with numbers replaced by table entries in its type table. -/
structure InlinesTable (context context' : ScopeContext) : Prop where
  names : context'.names = context.names
  parameters : context'.parameters = context.parameters
  entries : List.Forall₂ context.InlinesRecord context.types.types context'.types.types

theorem inlinesTable_refl : context.InlinesTable context :=
  ⟨rfl, rfl, List.forall₂_same.2 fun record _ => inlinesRecord_refl record⟩

theorem readArgument_inlined {read read' : TypeRef → Except SymbolError Ty}
    (same : ∀ {ref ref'}, context.Inlines ref ref' → read' ref' = read ref)
    {record record' : ArgumentRecord} (inlines : context.InlinesArgument record record') :
    readArgument read' record' = readArgument read record := by
  cases inlines with
  | none projection => cases projection <;> rfl
  | @some projection ref ref' within =>
    cases projection with
    | star => rfl
    | varying variance => rw [readArgument, readArgument, same within]

section Inlined

variable {context' : ScopeContext} (inlined : context.InlinesTable context')
include inlined

theorem readClassifier_inlined (classifier : Classifier) :
    context'.readClassifier classifier = context.readClassifier classifier := by
  cases classifier <;> simp only [readClassifier, inlined.names, inlined.parameters]

/-- References that differ by inlining name stored types that do, or no entry. -/
theorem lookupType_inlined {ref ref' : TypeRef} (inlines : context.Inlines ref ref') :
    (∃ error, context.lookupType ref = .error error ∧ context'.lookupType ref' = .error error) ∨
      ∃ record record', context.lookupType ref = .ok record ∧
        context'.lookupType ref' = .ok record' ∧
        context.InlinesRecord record record' := by
  cases inlines with
  | inline within => exact .inr ⟨_, _, rfl, rfl, within⟩
  | entry stored within => exact .inr ⟨_, _, lookupType_eq_ok_iff.2 stored, rfl, within⟩
  | table index =>
    have same := forall₂_getElem? inlined.entries index.toNat
    simp only [lookupType, TypeTable.get]
    generalize context.types.types[index.toNat]? = before at same ⊢
    generalize context'.types.types[index.toNat]? = after at same ⊢
    cases same with
    | none => exact .inl ⟨_, rfl, rfl⟩
    | some within => exact .inr ⟨_, _, rfl, rfl, within⟩

/-- Reading gives the same whether table entries stand in the place of their numbers or not, in the
table too. -/
theorem readWithin_inlined {room : Nat} {record record' : TypeRecord}
    (inlines : context.InlinesRecord record record') :
    context'.readWithin room record' = context.readWithin room record := by
  induction room generalizing record record' with
  | zero => rfl
  | succ room ih =>
    cases inlines with
    | @mk classifier records records' nullable each =>
      have below {ref ref' : TypeRef} (within : context.Inlines ref ref') :
          (context'.lookupType ref' >>= context'.readWithin room) =
            (context.lookupType ref >>= context.readWithin room) := by
        rcases lookupType_inlined inlined within with ⟨error, before, after⟩ |
          ⟨record, record', before, after, within⟩
        · rw [before, after]
          rfl
        · rw [before, after]
          exact ih within
      have arguments :=
        mapM_eq_of_forall₂ (each.imp fun _ _ within => readArgument_inlined below within)
      simp only [readWithin, readClassifier_inlined inlined, arguments]

theorem readType_inlined {ref ref' : TypeRef} (inlines : context.Inlines ref ref') :
    context'.readType ref' = context.readType ref := by
  unfold readType readTypeRecord
  rcases lookupType_inlined inlined inlines with ⟨error, before, after⟩ |
    ⟨record, record', before, after, within⟩
  · rw [before, after]
    rfl
  · rw [before, after]
    exact readWithin_inlined inlined within

end Inlined

/-- A reference stands for a type iff that is the unfolding of what it names and does not nest
deeper than the limit. A reference that names no entry, or whose unfolding would be infinite or have
something missing in it, stands for none. Table entries may stand in the place of their numbers, in
the reference and in the type table. -/
theorem readType_exact (context : ScopeContext) (ref : TypeRef) :
    (∀ type, context.readType ref = .ok type ↔
        ∃ record, context.stored? ref = some record ∧ context.Unfolds record type ∧
          type.nesting ≤ Limits.typeDepth) ∧
      ((context.stored? ref = none ∨ ∃ record, context.stored? ref = some record ∧
          (context.Endless record ∨
            ∃ other, ReflTransGen context.Argues record other ∧ context.Faulty other)) →
        ∃ error, context.readType ref = .error error) ∧
      ∀ context' ref', context.InlinesTable context' → context.Inlines ref ref' →
        context'.readType ref' = context.readType ref := by
  have reads (type : Ty) : context.readType ref = .ok type ↔
    ∃ record, context.stored? ref = some record ∧
      context.Unfolds record type ∧ type.nesting ≤ Limits.typeDepth := by
    simp only [readType, readTypeRecord, Except.bind_eq_ok_iff, lookupType_eq_ok_iff,
      readWithin_eq_ok_iff, Nat.lt_succ_iff]
  refine ⟨reads, fun missing => ?_, fun context' ref' inlined inlines =>
    readType_inlined inlined inlines⟩
  cases found : context.readType ref with
  | error error => exact ⟨error, rfl⟩
  | ok type =>
    obtain ⟨record, stored, unfolds, -⟩ := (reads type).1 found
    obtain ⟨ends, sound⟩ := exists_unfolds_iff.1 ⟨type, unfolds⟩
    rcases missing with missing | ⟨record', stored', endless | ⟨other, reaches, faulty⟩⟩
    · cases missing.symm.trans stored
    · obtain rfl := Option.some.inj (stored'.symm.trans stored)
      exact absurd endless ends
    · obtain rfl := Option.some.inj (stored'.symm.trans stored)
      exact absurd faulty (sound other reaches)

/-- A type table with a list of integers that may be null, whose second argument is a star
projection with the number of no entry, the integers, a list that has itself for an argument, and a
list of what is missing. -/
def lists : ScopeContext where
  fragment := ⟨1⟩
  names := {
    strings := ["List", "Int"]
    qualifiedNames :=
      [{ shortName := 0, kind := .classifier }, { shortName := 1, kind := .classifier }] }
  types := ⟨[.mk (.className 0) [.mk (.varying .covariant) (some (.table 1)),
    .mk .star (some (.table 9))] true,
    .mk (.className 1) [] false,
      .mk (.className 0) [.mk (.varying .invariant) (some (.table 2))] false,
    .mk (.className 0) [.mk (.varying .invariant) (some (.table 9))] false]⟩

/-- The first entry unfolds, with the second one in place of its number too. The last two do not. -/
theorem readType_exact_lists :
    lists.readType (.table 0) = .ok (.mk (.classifier ⟨"", "List", false⟩)
        [.projected .covariant (.ofClass ⟨"", "Int", false⟩), .star] true) ∧
      (∃ error, lists.readType (.table 2) = .error error) ∧
      (∃ error, lists.readType (.table 3) = .error error) ∧
      lists.readType (.inline (.mk (.className 0)
        [.mk (.varying .covariant) (some (.inline (.mk (.className 1) [] false))),
          .mk .star (some (.table 9))] true)) =
          lists.readType (.table 0) := by
  have list : lists.Denotes (.className 0) (.classifier ⟨"", "List", false⟩) :=
    .className (by decide)
  have int : lists.Denotes (.className 1) (.classifier ⟨"", "Int", false⟩) := .className (by decide)
  refine ⟨((readType_exact lists _).1 _).2 ⟨_, rfl, .mk list ?_, by decide⟩,
    (readType_exact lists _).2.1 (.inr ⟨_, rfl, .inl ⟨fun _ => _, rfl, fun _ => ?_⟩⟩),
    (readType_exact lists _).2.1 (.inr ⟨_, rfl, .inr ⟨_, .refl, ?_⟩⟩),
    (readType_exact lists _).2.2 lists _ inlinesTable_refl (.entry rfl (.mk ?_))⟩
  · exact .cons (.projected rfl (.mk int .nil)) (.cons (.star _) .nil)
  · exact .mk List.mem_cons_self rfl
  · exact .dangling List.mem_cons_self rfl
  · exact .cons (.some (.entry rfl (.mk .nil))) (.cons (.some (.table 9)) .nil)

end ScopeContext

end ClassSymbols
