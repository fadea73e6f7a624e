import ClassSymbols.Declaration.Basic
import ClassSymbols.Scope.Types

/-!
# Declarations from records

A record is read at a site: in the context of the declaration that will contain it, under an id that
was reserved for it. Reading changes nothing; a reference that cannot be resolved is reported with
the name of the declaration and the path of the site.

## Main definitions

* `Site` — where a record is read.
* `Site.readClass`, `Site.readFunction`, `Site.readConstructor`, `Site.readProperty` — the
  declaration of a record.
-/

namespace ClassSymbols

/-- The context in which records are read, and its path for error messages. -/
structure Site where
  context : ScopeContext
  path : String

def constructorName : String := "<init>"

/-- What stands for the name of a declaration whose name cannot be read. -/
def unnamedSymbol : String := "<unnamed>"

namespace Site

/-- A result whose unresolved references are reported in `symbol` at this site. -/
def reporting {α : Type} (site : Site) (symbol : String) (result : Except SymbolError α) :
    Except SymbolError α :=
  result.mapError (·.within symbol site.path)

/-! ## Parts of declarations -/

def readName (site : Site) (index : UInt32) : Except SymbolError String :=
  site.reporting unnamedSymbol ((site.context.names.string index).mapError .ofTableError)

def annotationOf (context : ScopeContext) (record : AnnotationRecord) :
    Except SymbolError Annotation := do
  let classId ← (context.names.classId record.className).mapError .ofTableError
  return { classId }

/-- The type parameter number `index` of `owner`, without its bounds. -/
def readParameterHead (context : ScopeContext) (owner : DeclId)
    (numbered : TypeParameterRecord × Nat) : Except SymbolError TypeParameter := do
  let (record, index) := numbered
  let name ← (context.names.string record.name).mapError .ofTableError
  return {
    id := record.id, name, index, owner, variance := record.variance, reified := record.reified }

def readBounds (context : ScopeContext) (numbered : TypeParameter × TypeParameterRecord) :
    Except SymbolError TypeParameter := do
  let (parameter, record) := numbered
  return { parameter with upperBounds := ← record.upperBounds.mapM context.readType }

/-- The type parameters of `owner`. Bounds may refer to any parameter of the list, so all of them
are in scope before the first bound is read. -/
def readTypeParameters (context : ScopeContext) (owner : DeclId)
    (records : List TypeParameterRecord) : Except SymbolError (List TypeParameter) := do
  let parameters ← records.zipIdx.mapM (readParameterHead context owner)
  (parameters.zip records).mapM (readBounds (context.withParameters parameters))

def readValueParameter (context : ScopeContext) (record : ValueParameterRecord) :
    Except SymbolError ValueParameter := do
  let name ← (context.names.string record.name).mapError .ofTableError
  let type ← context.readType record.type
  let varargElement ← record.varargElement.mapM context.readType
  let annotations ← record.annotations.mapM (annotationOf context)
  return {
    name, type, varargElement, annotations
    declaresDefault := record.flags.has .declaresDefault
    isCrossinline := record.flags.has .crossinline
    isNoinline := record.flags.has .noinline }

def accessorOf (record : AccessorRecord) : Accessor where
  isDefault := !record.flags.has .isNotDefault
  isExternal := record.flags.has .isExternal
  isInline := record.flags.has .isInline
  visibility := record.visibility
  modality := record.modality

/-! ## Declarations -/

/-- The supertypes of a class: every class but the root has the root as a supertype if it lists
none. -/
def withRoot (classId : ClassId) (supertypes : List Ty) : List Ty :=
  if supertypes.isEmpty && classId != .any then [.ofClass .any] else supertypes

/-- The payload of the class with a given id. Its supertypes, its members and the bounds of its type
parameters refer to its own type table. Its members are read when first asked for. -/
def readClassData (site : Site) (id : DeclId) (classId : ClassId) (record : ClassRecord) :
    Except SymbolError ClassData := do
  let types : TypeTable := .ofRecord record.typeTable
  let base := site.context.enter id [] (some types)
  let typeParameters ← readTypeParameters base id record.typeParameters
  let context := base.withParameters typeParameters
  let supertypes ← record.supertypes.mapM context.readType
  return {
    classId, types, typeParameters
    kind := record.kind
    modality := record.modality
    visibility := record.visibility
    flags := record.flags
    supertypes := withRoot classId supertypes
    members := .deferred { record, context } }

/-- The class of a record, under the id `id`. -/
def readClass (site : Site) (id : DeclId) (record : ClassRecord) :
    Except SymbolError Declaration := do
  let classId ← site.reporting unnamedSymbol
    ((site.context.names.classId record.qualifiedName).mapError .ofTableError)
  site.reporting classId.shortName do
    let data ← site.readClassData id classId record
    let annotations ← record.annotations.mapM (annotationOf site.context)
    return {
      id, annotations
      name := classId.shortName
      container := some site.context.owner
      origin := .deserialized
      kind := .classifier data }

/-- The function of a record, under the id `id`. -/
def readFunction (site : Site) (id : DeclId) (record : FunctionRecord) :
    Except SymbolError Declaration := do
  let name ← site.readName record.name
  site.reporting name do
    let typeParameters ← readTypeParameters site.context id record.typeParameters
    let context := site.context.withParameters typeParameters
    let receiver ← record.receiver.mapM context.readType
    let valueParameters ← record.valueParameters.mapM (readValueParameter context)
    let returnType ← context.readType record.returnType
    let annotations ← record.annotations.mapM (annotationOf context)
    return {
      id, name, annotations
      container := some site.context.owner
      origin := .deserialized
      kind := .function {
        typeParameters, receiver, valueParameters, returnType
        modality := record.modality
        visibility := record.visibility
        flags := record.flags } }

/-- The constructor of a record, under the id `id`, of the class with the id `owner` and the given
payload. -/
def readConstructor (site : Site) (owner : DeclId) (data : ClassData) (id : DeclId)
    (record : ConstructorRecord) : Except SymbolError Declaration :=
  site.reporting constructorName do
    let valueParameters ← record.valueParameters.mapM (readValueParameter site.context)
    let annotations ← record.annotations.mapM (annotationOf site.context)
    return {
      id, annotations
      name := constructorName
      container := some owner
      origin := .deserialized
      kind := .constructor {
        valueParameters
        returnType := data.selfType
        isPrimary := record.isPrimary
        visibility := record.visibility } }

/-- The property of a record, under the id `id`. An accessor without a record is a default one with
the modifiers of the property; only a mutable property has a setter. -/
def readProperty (site : Site) (id : DeclId) (record : PropertyRecord) :
    Except SymbolError Declaration := do
  let name ← site.readName record.name
  site.reporting name do
    let typeParameters ← readTypeParameters site.context id record.typeParameters
    let context := site.context.withParameters typeParameters
    let receiver ← record.receiver.mapM context.readType
    let type ← context.readType record.returnType
    let annotations ← record.annotations.mapM (annotationOf context)
    let isVar := record.flags.has .isVar
    let plain : Accessor := {
      isDefault := true, visibility := record.visibility, modality := record.modality }
    return {
      id, name, annotations
      container := some site.context.owner
      origin := .deserialized
      kind := .property {
        typeParameters, receiver, type, isVar
        isDelegated := record.flags.has .isDelegated
        isConst := record.flags.has .isConst
        isLateInit := record.flags.has .lateInit
        getter := some ((record.getter.map accessorOf).getD plain)
        setter := if isVar then some ((record.setter.map accessorOf).getD plain) else none
        modality := record.modality
        visibility := record.visibility } }

end Site

end ClassSymbols
