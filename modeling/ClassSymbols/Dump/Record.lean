import ClassSymbols.Dump.Flags
import ClassSymbols.Dump.Modifiers

/-!
# Records of a symbol table

The form in which declarations are stored. Names are numbers of entries in the string table
(`name`) or in the table of qualified names (`qualifiedName`, `className`) of a package fragment;
types are stored in place or as numbers of entries in the type table of the nearest enclosing class
or package.

## Main definitions

* `TypeRef`, `TypeRecord`, `ArgumentRecord` — stored types.
* `ClassRecord`, `FunctionRecord`, `ConstructorRecord`, `PropertyRecord` — stored declarations.
* `LocalRecord` — a stored declaration without an entry at the top level.
* `TableDump` — the symbol table of a module.
-/

namespace ClassSymbols

/-! ## Flags of the kinds of records -/

inductive ClassFlag where
  | inner | data | external | inline
  deriving DecidableEq, Repr

instance : Keyword ClassFlag where
  all := [.inner, .data, .external, .inline]
  text
    | .inner => "INNER"
    | .data => "DATA"
    | .external => "EXTERNAL"
    | .inline => "INLINE"

inductive FunctionFlag where
  | operator | infixCall | inline | tailRecursive | external | suspend
  deriving DecidableEq, Repr

instance : Keyword FunctionFlag where
  all := [.operator, .infixCall, .inline, .tailRecursive, .external, .suspend]
  text
    | .operator => "OPERATOR"
    | .infixCall => "INFIX"
    | .inline => "INLINE"
    | .tailRecursive => "TAILREC"
    | .external => "EXTERNAL"
    | .suspend => "SUSPEND"

inductive ConstructorFlag where
  | isSecondary | hasUnstableNames
  deriving DecidableEq, Repr

instance : Keyword ConstructorFlag where
  all := [.isSecondary, .hasUnstableNames]
  text
    | .isSecondary => "IS_SECONDARY"
    | .hasUnstableNames => "HAS_NON_STABLE_PARAMETER_NAMES"

inductive PropertyFlag where
  | isVar | hasGetter | hasSetter | isConst | lateInit | hasConstant | isDelegated | external
  deriving DecidableEq, Repr

instance : Keyword PropertyFlag where
  all := [.isVar, .hasGetter, .hasSetter, .isConst, .lateInit, .hasConstant, .isDelegated,
    .external]
  text
    | .isVar => "IS_VAR"
    | .hasGetter => "HAS_GETTER"
    | .hasSetter => "HAS_SETTER"
    | .isConst => "IS_CONST"
    | .lateInit => "LATEINIT"
    | .hasConstant => "HAS_CONSTANT"
    | .isDelegated => "IS_DELEGATED"
    | .external => "EXTERNAL"

inductive ValueParameterFlag where
  | declaresDefault | crossinline | noinline
  deriving DecidableEq, Repr

instance : Keyword ValueParameterFlag where
  all := [.declaresDefault, .crossinline, .noinline]
  text
    | .declaresDefault => "DECLARES_DEFAULT_VALUE"
    | .crossinline => "CROSSINLINE"
    | .noinline => "NOINLINE"

inductive AccessorFlag where
  | isNotDefault | isExternal | isInline
  deriving DecidableEq, Repr

instance : Keyword AccessorFlag where
  all := [.isNotDefault, .isExternal, .isInline]
  text
    | .isNotDefault => "IS_NOT_DEFAULT"
    | .isExternal => "IS_EXTERNAL"
    | .isInline => "IS_INLINE"

/-! ## Types -/

/-- What a stored type is built on: a class by its qualified name, or a type parameter of an
enclosing declaration by its number or by its name. -/
inductive Classifier where
  | className (index : UInt32)
  | typeParameter (id : UInt32)
  | typeParameterName (index : UInt32)
  deriving DecidableEq, Repr

/-- How a stored type argument is projected. -/
inductive Projection where
  | star
  | varying (variance : Variance)
  deriving DecidableEq, Repr

instance : Inhabited Projection := ⟨.varying .invariant⟩

instance : Keyword Projection where
  all := [.varying .contravariant, .varying .covariant, .varying .invariant, .star]
  text
    | .varying .contravariant => "in"
    | .varying .covariant => "out"
    | .varying .invariant => "inv"
    | .star => "star"
  find?_text a := by rcases a with _ | _ | _ | _ <;> rfl

mutual
/-- A stored type, in place or as the number of an entry in a type table. -/
inductive TypeRef where
  | table (index : UInt32)
  | inline (type : TypeRecord)

/-- The form in which a type is stored. -/
inductive TypeRecord where
  | mk (classifier : Classifier) (arguments : List ArgumentRecord) (nullable : Bool)

/-- A stored type argument. The type may be missing from a star projection only. -/
inductive ArgumentRecord where
  | mk (projection : Projection) (type : Option TypeRef)
end

def TypeRecord.makeNullable : TypeRecord → TypeRecord
  | .mk classifier arguments _ => .mk classifier arguments true

/-- The stored form of a type table. Entries from `firstNullable` on are nullable whatever they say
themselves. -/
structure TypeTableRecord where
  types : List TypeRecord := []
  firstNullable : Option UInt32 := none

/-! ## Declarations -/

structure TypeParameterRecord where
  id : UInt32
  name : UInt32
  reified : Bool := false
  variance : Variance := .invariant
  upperBounds : List TypeRef := []

structure AnnotationRecord where
  className : UInt32
  deriving DecidableEq, Repr

structure ValueParameterRecord where
  flags : Flags ValueParameterFlag := .empty
  name : UInt32
  type : TypeRef
  varargElement : Option TypeRef := none
  annotations : List AnnotationRecord := []

structure AccessorRecord where
  flags : Flags AccessorFlag := .empty
  visibility : Visibility := .everywhere
  modality : Modality := .final
  deriving DecidableEq, Repr

structure FunctionRecord where
  flags : Flags FunctionFlag := .empty
  modality : Modality := .final
  visibility : Visibility := .everywhere
  name : UInt32
  typeParameters : List TypeParameterRecord := []
  receiver : Option TypeRef := none
  valueParameters : List ValueParameterRecord := []
  returnType : TypeRef
  annotations : List AnnotationRecord := []

structure ConstructorRecord where
  flags : Flags ConstructorFlag := .empty
  visibility : Visibility := .everywhere
  valueParameters : List ValueParameterRecord := []
  annotations : List AnnotationRecord := []

/-- A constructor is primary unless it is marked as secondary. -/
def ConstructorRecord.isPrimary (record : ConstructorRecord) : Bool :=
  !record.flags.has .isSecondary

/-- A stored property. `usedAsVariable` marks the record of a local variable. -/
structure PropertyRecord where
  flags : Flags PropertyFlag := .empty
  modality : Modality := .final
  visibility : Visibility := .everywhere
  name : UInt32
  typeParameters : List TypeParameterRecord := []
  receiver : Option TypeRef := none
  returnType : TypeRef
  getter : Option AccessorRecord := none
  setter : Option AccessorRecord := none
  annotations : List AnnotationRecord := []
  usedAsVariable : Bool := false

/-- A stored class with its members and the type table that they refer to. -/
structure ClassRecord where
  flags : Flags ClassFlag := .empty
  kind : ClassKind := .plain
  modality : Modality := .final
  visibility : Visibility := .everywhere
  qualifiedName : UInt32
  typeParameters : List TypeParameterRecord := []
  supertypes : List TypeRef := []
  constructors : List ConstructorRecord := []
  functions : List FunctionRecord := []
  properties : List PropertyRecord := []
  nestedClasses : List ClassRecord := []
  typeTable : TypeTableRecord := {}
  annotations : List AnnotationRecord := []

/-- A stored declaration that has no entry at the top level. -/
inductive LocalRecord where
  | classRecord (record : ClassRecord)
  | function (record : FunctionRecord)
  | constructor (record : ConstructorRecord)
  | property (record : PropertyRecord)

def LocalRecord.flagBits : LocalRecord → UInt32
  | .classRecord record => record.flags.bits
  | .function record => record.flags.bits
  | .constructor record => record.flags.bits
  | .property record => record.flags.bits

/-- What a local record declares. -/
inductive RecordKind where
  | classKind
  | function
  | constructor
  | property
  deriving DecidableEq, Repr

instance : Keyword RecordKind where
  all := [.classKind, .function, .constructor, .property]
  text
    | .classKind => "class"
    | .function => "function"
    | .constructor => "constructor"
    | .property => "property"

def LocalRecord.kind : LocalRecord → RecordKind
  | .classRecord _ => .classKind
  | .function _ => .function
  | .constructor _ => .constructor
  | .property _ => .property

/-! ## Tables -/

/-- What an entry of a qualified-name table names. -/
inductive QualifiedNameKind where
  | classifier
  | package
  | localClass
  deriving DecidableEq, Repr

instance : Inhabited QualifiedNameKind := ⟨.package⟩

instance : Keyword QualifiedNameKind where
  all := [.classifier, .package, .localClass]
  text
    | .classifier => "class"
    | .package => "package"
    | .localClass => "local"

/-- An entry of a qualified-name table: a short name under a parent entry. -/
structure QualifiedNameRecord where
  parent : Option UInt32 := none
  shortName : UInt32
  kind : QualifiedNameKind := .package
  deriving DecidableEq, Repr

/-- What a package fragment owns beside its declarations. -/
structure PackageRecord where
  typeTable : TypeTableRecord := {}

/-- The stored form of a package fragment. -/
structure FragmentRecord where
  name : String
  strings : List String := []
  qualifiedNames : List QualifiedNameRecord := []
  package : PackageRecord := {}
  classes : List ClassRecord := []
  localDeclarations : List LocalRecord := []

/-- The stored form of the symbol table of a module. -/
structure TableDump where
  module : String
  fragments : List FragmentRecord := []

/-- The place of a local record: its package fragment and its number there. -/
structure RecordRef where
  fragment : String
  index : UInt32
  deriving DecidableEq, Repr

end ClassSymbols
