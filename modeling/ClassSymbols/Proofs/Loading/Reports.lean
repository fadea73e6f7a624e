import ClassSymbols.Loading.Local
import ClassSymbols.Proofs.Loading.Records

/-!
# Where unresolved references are met

A reference that cannot be resolved is met by a reader that does not know what it reads for: types,
bounds, annotations and names are read with the symbol and the scope left open. The one layer around
them that belongs to a declaration fills in both, so that all failures of a record's reading say the
same.

## Main definitions

* `SymbolError.place?` — the symbol and the scope that an error says.
* `Reports`, `Placeless` — results that fail with one symbol and one scope, or without any.
* `MemberRecord.symbol` — the name of what a record declares, as far as it can be read.

## Main statements

* `ScopeContext.bare_readType` — types are read with symbol and scope left open, however deep the
  reference is.
* `MemberRecord.reports_reader` — the symbol and the scope with which the reading of a record fails.
-/

namespace ClassSymbols

/-- The symbol and the scope in which an unresolved reference was met. -/
def SymbolError.place? : SymbolError → Option (String × String)
  | .unresolvedType _ symbol scope | .unresolvedName _ symbol scope => some (symbol, scope)
  | _ => none

/-- Whether a failure with an unresolved reference says that the reference was met in `symbol`, in
`scope`. -/
def Reports {α : Type} (symbol scope : String) (result : Except SymbolError α) : Prop :=
  ∀ e, result = .error e → ∀ place, e.place? = some place → place = (symbol, scope)

/-- Whether a failure has nothing to do with an unresolved reference. -/
def Placeless {α : Type} (result : Except SymbolError α) : Prop :=
  ∀ e, result = .error e → e.place? = none

/-- Whether a failure leaves open where an unresolved reference was met. -/
abbrev Bare {α : Type} (result : Except SymbolError α) : Prop := Reports "" "" result

namespace Reports

variable {α β : Type} {symbol scope : String} {x : Except SymbolError α}
  {f : α → Except SymbolError β}

theorem ok (a : α) : Reports symbol scope (.ok a) := fun _ h => nomatch h

theorem bind (first : Reports symbol scope x)
    (later : ∀ a, x = .ok a → Reports symbol scope (f a)) :
    Reports symbol scope (x >>= f) := by
  cases x with
  | error e => exact fun e' h => first e' (congrArg _ (Except.error.inj h))
  | ok a => exact later a rfl

theorem map {g : α → β} (reports : Reports symbol scope x) : Reports symbol scope (x.map g) := by
  cases x with
  | error e => exact fun e' h => reports e' (congrArg _ (Except.error.inj h))
  | ok a => exact .ok (g a)

theorem mapM {list : List α} (steps : ∀ a ∈ list, Reports symbol scope (f a)) :
    Reports symbol scope (list.mapM f) := by
  induction list with
  | nil => exact .ok []
  | cons a rest ih =>
    obtain ⟨first, others⟩ := List.forall_mem_cons.1 steps
    rw [List.mapM_cons]
    exact first.bind fun _ _ => (ih others).bind fun _ _ => .ok _

theorem optionMapM {o : Option α} (steps : ∀ a, Reports symbol scope (f a)) :
    Reports symbol scope (o.mapM f) := by
  cases o with
  | none => exact .ok none
  | some a => exact (steps a).bind fun _ _ => .ok _

/-- What is left open is filled in by the layer around. -/
theorem within (bare : Bare x) : Reports symbol scope (x.mapError (·.within symbol scope)) := by
  cases x with
  | ok a => exact .ok a
  | error e =>
    rintro _ h place met
    obtain rfl := Except.error.inj h
    have bare := bare e rfl
    cases e with
    | unresolvedType index symbol' scope' | unresolvedName index symbol' scope' =>
      obtain ⟨rfl, rfl⟩ := Prod.mk.inj (bare _ rfl)
      exact (Option.some.inj met).symm
    | _ => cases met

end Reports

namespace Placeless

variable {α β : Type} {x : Except SymbolError α} {f : α → Except SymbolError β}

theorem ok (a : α) : Placeless (.ok a : Except SymbolError α) := fun _ h => nomatch h

theorem error {e : SymbolError} (placeless : e.place? = none) :
    Placeless (.error e : Except SymbolError α) :=
  fun _ h => Except.error.inj h ▸ placeless

theorem bind (first : Placeless x) (later : ∀ a, x = .ok a → Placeless (f a)) :
    Placeless (x >>= f) := by
  cases x with
  | error e => exact fun e' h => first e' (congrArg _ (Except.error.inj h))
  | ok a => exact later a rfl

theorem reports (placeless : Placeless x) (symbol scope : String) : Reports symbol scope x :=
  fun e h _ met => nomatch (placeless e h).symm.trans met

end Placeless

/-- The failure of a table lookup does not say where it was met. -/
theorem bare_ofTableError {α : Type} (found : Except TableError α) :
    Bare (found.mapError .ofTableError) := by
  cases found with
  | ok a => exact .ok a
  | error e =>
    rintro _ h place met
    obtain rfl := Except.error.inj h
    cases e <;> cases met <;> rfl

/-! ## Types -/

namespace ScopeContext

variable (context : ScopeContext)

theorem bare_readClassifier (classifier : Classifier) :
    Bare (context.readClassifier classifier) := by
  cases classifier with
  | className index => exact (bare_ofTableError _).bind fun _ _ => .ok _
  | typeParameter id =>
    rw [readClassifier]
    split
    · exact .ok _
    · rintro e h place met
      obtain rfl := Except.error.inj h
      exact (Option.some.inj met).symm
  | typeParameterName index =>
    refine (bare_ofTableError _).bind fun name _ => ?_
    split
    · exact .ok _
    · rintro e h place met
      obtain rfl := Except.error.inj h
      exact (Option.some.inj met).symm

theorem bare_lookupType (type : TypeRef) : Bare (context.lookupType type) := by
  cases type with
  | table index => exact bare_ofTableError _
  | inline type => exact .ok type

theorem bare_readArgument {read : TypeRef → Except SymbolError Ty} (bare : ∀ type, Bare (read type))
    (argument : ArgumentRecord) : Bare (readArgument read argument) := by
  obtain ⟨projection, type⟩ := argument
  cases projection with
  | star => exact .ok _
  | varying variance =>
    cases type with
    | none => exact (Placeless.error rfl).reports "" ""
    | some type => exact (bare type).map

/-- Types are read with symbol and scope left open, however deep inside a reference is. -/
theorem bare_readWithin (room : Nat) (record : TypeRecord) :
    Bare (context.readWithin room record) := by
  induction room generalizing record with
  | zero => exact (Placeless.error rfl).reports "" ""
  | succ room ih =>
    obtain ⟨classifier, arguments, nullable⟩ := record
    refine (context.bare_readClassifier classifier).bind fun head _ => ?_
    refine Reports.bind (.mapM fun argument _ => ?_) fun _ _ => .ok _
    exact bare_readArgument (fun type =>
      (context.bare_lookupType type).bind fun record _ => ih record) argument

theorem bare_readType (type : TypeRef) : Bare (context.readType type) :=
  (context.bare_lookupType type).bind fun record _ => context.bare_readWithin _ record

end ScopeContext

/-! ## Parts of declarations -/

namespace Site

theorem bare_annotationOf (context : ScopeContext) (record : AnnotationRecord) :
    Bare (annotationOf context record) :=
  (bare_ofTableError _).bind fun _ _ => .ok _

theorem bare_readTypeParameters (context : ScopeContext) (owner : DeclId)
    (records : List TypeParameterRecord) :
    Bare (readTypeParameters context owner records) := by
  refine Reports.bind (.mapM fun numbered _ => ?_) fun parameters _ => .mapM fun numbered _ => ?_
  · exact (bare_ofTableError _).bind fun _ _ => .ok _
  · exact Reports.bind (.mapM fun bound _ => ScopeContext.bare_readType _ bound) fun _ _ => .ok _

theorem bare_readValueParameter (context : ScopeContext) (record : ValueParameterRecord) :
    Bare (readValueParameter context record) :=
  (bare_ofTableError _).bind fun _ _ => (context.bare_readType record.type).bind fun _ _ =>
    (Reports.optionMapM context.bare_readType).bind fun _ _ =>
      (Reports.mapM fun annotation _ => bare_annotationOf context annotation).bind fun _ _ => .ok _

theorem bare_readClassData (site : Site) (id : DeclId) (classId : ClassId) (record : ClassRecord) :
    Bare (site.readClassData id classId record) :=
  (bare_readTypeParameters _ id record.typeParameters).bind fun _ _ =>
    (Reports.mapM fun type _ => ScopeContext.bare_readType _ type).bind fun _ _ => .ok _

end Site

/-! ## Records -/

/-- The name that failures to read a record are reported in: that of the declaration, if it can be
read. -/
def MemberRecord.symbol (names : NameTable) : MemberRecord → String
  | .constructor _ => constructorName
  | .function record => (names.string record.name).toOption.getD unnamedSymbol
  | .property record => (names.string record.name).toOption.getD unnamedSymbol
  | .classifier record =>
    ((names.classId record.qualifiedName).map (·.shortName)).toOption.getD unnamedSymbol

theorem Store.placeless_resolve (store : Store) (id : DeclId) : Placeless (store.resolve id) := by
  rw [resolve]
  split
  · exact .ok _
  · exact .error rfl

namespace Site

variable (site : Site)

theorem reports_readName {α : Type} (index : UInt32) {f : String → Except SymbolError α}
    (bare : ∀ name, Bare (f name)) :
    Reports ((site.context.names.string index).toOption.getD unnamedSymbol) site.path
      (do
        let name ← site.readName index
        site.reporting name (f name)) := by
  rw [readName]
  cases site.context.names.string index with
  | error e =>
    refine (Reports.within (bare_ofTableError _)).bind ?_
    intro _ read
    cases read
  | ok name => exact .within (bare name)

theorem reports_readFunction (id : DeclId) (record : FunctionRecord) :
    Reports ((MemberRecord.function record).symbol site.context.names) site.path
      (site.readFunction id record) :=
  site.reports_readName record.name fun _ =>
    (bare_readTypeParameters _ id record.typeParameters).bind fun _ _ =>
    (Reports.optionMapM fun type => ScopeContext.bare_readType _ type).bind fun _ _ =>
      (Reports.mapM fun parameter _ => bare_readValueParameter _ parameter).bind fun _ _ =>
        (ScopeContext.bare_readType _ record.returnType).bind fun _ _ =>
          (Reports.mapM fun annotation _ => bare_annotationOf _ annotation).bind fun _ _ => .ok _

theorem reports_readProperty (id : DeclId) (record : PropertyRecord) :
    Reports ((MemberRecord.property record).symbol site.context.names) site.path
      (site.readProperty id record) :=
  site.reports_readName record.name fun _ =>
    (bare_readTypeParameters _ id record.typeParameters).bind fun _ _ =>
    (Reports.optionMapM fun type => ScopeContext.bare_readType _ type).bind fun _ _ =>
      (ScopeContext.bare_readType _ record.returnType).bind fun _ _ =>
        (Reports.mapM fun annotation _ => bare_annotationOf _ annotation).bind fun _ _ => .ok _

theorem reports_readClass (id : DeclId) (record : ClassRecord) :
    Reports ((MemberRecord.classifier record).symbol site.context.names) site.path
      (site.readClass id record) := by
  rw [readClass, MemberRecord.symbol]
  cases site.context.names.classId record.qualifiedName with
  | error e =>
    refine (Reports.within (bare_ofTableError _)).bind ?_
    intro _ read
    cases read
  | ok classId =>
    exact .within ((bare_readClassData site id classId record).bind fun _ _ =>
      (Reports.mapM fun annotation _ => bare_annotationOf _ annotation).bind fun _ _ => .ok _)

theorem reports_readConstructor (owner : DeclId) (data : ClassData) (id : DeclId)
    (record : ConstructorRecord) :
    Reports constructorName site.path (site.readConstructor owner data id record) :=
  .within ((Reports.mapM fun parameter _ => bare_readValueParameter _ parameter).bind fun _ _ =>
    (Reports.mapM fun annotation _ => bare_annotationOf _ annotation).bind fun _ _ => .ok _)

/-- Outside of a class there is no constructor. -/
theorem placeless_ownerClass (base : Store) : Placeless (site.ownerClass base) := by
  refine (base.placeless_resolve _).bind fun owner _ => ?_
  split
  · exact .ok _
  · exact .error rfl

end Site

/-- A record whose reading fails with an unresolved reference reports it in the name of its
declaration, and at its site. -/
theorem MemberRecord.reports_reader (record : MemberRecord) (site : Site) (base : Store)
    (id : DeclId) :
    Reports (record.symbol site.context.names) site.path (record.reader site base id) := by
  cases record with
  | constructor record =>
    exact ((site.placeless_ownerClass base).reports _ _).bind fun (owner, data) _ =>
      site.reports_readConstructor owner data id record
  | function record => exact site.reports_readFunction id record
  | property record => exact site.reports_readProperty id record
  | classifier record => exact site.reports_readClass id record

end ClassSymbols
