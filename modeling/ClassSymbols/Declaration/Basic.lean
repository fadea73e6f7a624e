import ClassSymbols.Declaration.Parameter
import ClassSymbols.Scope.Context
import ClassSymbols.Ty.Builtin

/-!
# Declarations

A declaration has a header — its id, its name, the declaration that contains it, its annotations and
its origin — and a payload that depends on what it declares. Declarations refer to one another by
id; a store owns them.

## Main definitions

* `Declaration`, `DeclKind` — the declarations and their payloads.
* `ClassMembers`, `LazyMembers` — the members of a class, given or read when first asked for.
* `Declaration.typeParameters`, `Declaration.visibility`, `Declaration.overridden`, … — what every
  declaration answers.
-/

namespace ClassSymbols

/-- Where a declaration comes from: a source, a symbol table, or the synthesis of overrides. -/
inductive Origin where
  | source
  | deserialized
  | fakeOverride
  deriving DecidableEq, Repr

instance : Keyword Origin where
  all := [.source, .deserialized, .fakeOverride]
  text
    | .source => "source"
    | .deserialized => "deserialized"
    | .fakeOverride => "fake_override"

/-- A getter or setter. The default ones have no body of their own. -/
structure Accessor where
  isDefault : Bool := false
  isExternal : Bool := false
  isInline : Bool := false
  visibility : Visibility := .everywhere
  modality : Modality := .final
  deriving DecidableEq, Repr

/-- The payload of a package fragment: its full name and its tables. -/
structure PackageData where
  qualifiedName : String
  names : NameTable
  types : TypeTable

/-- The members of a class that are read from its record, in its context, when first asked for. -/
structure LazyMembers where
  record : ClassRecord
  context : ScopeContext
  loaded : Option (List DeclId) := none

inductive ClassMembers where
  | eager (members : List DeclId)
  | deferred (members : LazyMembers)

structure ClassData where
  classId : ClassId
  kind : ClassKind := .plain
  modality : Modality := .final
  visibility : Visibility := .everywhere
  flags : Flags ClassFlag := .empty
  typeParameters : List TypeParameter := []
  supertypes : List Ty := []
  types : TypeTable := {}
  members : ClassMembers := .eager []

/-- The type of an instance inside the class: the class applied to its own type parameters. -/
def ClassData.selfType (data : ClassData) : Ty :=
  (Ty.ofClass data.classId).withArguments
    (data.typeParameters.map fun parameter => .invariant parameter.asType)

/-- The payload of a function. `overridden` are the supertype members that it overrides. -/
structure FunctionData where
  typeParameters : List TypeParameter := []
  receiver : Option Ty := none
  valueParameters : List ValueParameter := []
  returnType : Ty
  modality : Modality := .final
  visibility : Visibility := .everywhere
  flags : Flags FunctionFlag := .empty
  overridden : List DeclId := []

structure ConstructorData where
  valueParameters : List ValueParameter := []
  returnType : Ty
  isPrimary : Bool := false
  visibility : Visibility := .everywhere

/-- The payload of a property. `overridden` are the supertype members that it overrides. -/
structure PropertyData where
  typeParameters : List TypeParameter := []
  receiver : Option Ty := none
  type : Ty
  isVar : Bool := false
  isDelegated : Bool := false
  isConst : Bool := false
  isLateInit : Bool := false
  getter : Option Accessor := none
  setter : Option Accessor := none
  modality : Modality := .final
  visibility : Visibility := .everywhere
  overridden : List DeclId := []

structure VariableData where
  type : Ty
  isVar : Bool := false
  isDelegated : Bool := false

/-- What a declaration declares. A `holder` only brings type parameters into scope. -/
inductive DeclKind where
  | module
  | package (data : PackageData)
  | classifier (data : ClassData)
  | function (data : FunctionData)
  | constructor (data : ConstructorData)
  | property (data : PropertyData)
  | localVariable (data : VariableData)
  | holder (typeParameters : List TypeParameter)

def DeclKind.label : DeclKind → String
  | .module => "module"
  | .package _ => "package"
  | .classifier _ => "class"
  | .function _ => "function"
  | .constructor _ => "constructor"
  | .property _ => "property"
  | .localVariable _ => "local variable"
  | .holder _ => "type parameter holder"

/-- A declaration. Only modules have no container. -/
structure Declaration where
  id : DeclId
  name : String
  container : Option DeclId
  annotations : List Annotation := []
  origin : Origin := .source
  kind : DeclKind

namespace Declaration

def class? (declaration : Declaration) : Option ClassData :=
  match declaration.kind with
  | .classifier data => some data
  | _ => none

def property? (declaration : Declaration) : Option PropertyData :=
  match declaration.kind with
  | .property data => some data
  | _ => none

def package? (declaration : Declaration) : Option PackageData :=
  match declaration.kind with
  | .package data => some data
  | _ => none

def isModule (declaration : Declaration) : Bool :=
  match declaration.kind with
  | .module => true
  | _ => false

/-- The type parameters that the declaration brings into scope inside it. -/
def typeParameters (declaration : Declaration) : List TypeParameter :=
  match declaration.kind with
  | .classifier data => data.typeParameters
  | .function data => data.typeParameters
  | .property data => data.typeParameters
  | .holder typeParameters => typeParameters
  | .module | .package _ | .constructor _ | .localVariable _ => []

/-- The type table that the declaration owns: classes and package fragments own one. -/
def ownTypes? (declaration : Declaration) : Option TypeTable :=
  match declaration.kind with
  | .package data => some data.types
  | .classifier data => some data.types
  | _ => none

def visibility (declaration : Declaration) : Visibility :=
  match declaration.kind with
  | .classifier data => data.visibility
  | .function data => data.visibility
  | .constructor data => data.visibility
  | .property data => data.visibility
  | .localVariable _ => .bodyOnly
  | .module | .package _ | .holder _ => .everywhere

def modality (declaration : Declaration) : Modality :=
  match declaration.kind with
  | .classifier data => data.modality
  | .function data => data.modality
  | .property data => data.modality
  | _ => .final

def overridden (declaration : Declaration) : List DeclId :=
  match declaration.kind with
  | .function data => data.overridden
  | .property data => data.overridden
  | _ => []

/-- Whether the declaration can take part in overriding. -/
def isCallable (declaration : Declaration) : Bool :=
  match declaration.kind with
  | .function _ | .property _ => true
  | _ => false

/-- The local variable that a property stands for, with its identity, container, annotations, name,
type and mutability and without accessors. Any other declaration is left as it is. -/
def asVariable (declaration : Declaration) : Declaration :=
  match declaration.kind with
  | .property data =>
    { declaration with
      kind := .localVariable {
        type := data.type
        isVar := data.isVar
        isDelegated := data.isDelegated } }
  | _ => declaration

end Declaration

end ClassSymbols
