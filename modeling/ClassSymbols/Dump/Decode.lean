import ClassSymbols.ClassId
import ClassSymbols.Dump.Record
import ClassSymbols.Json.Decoder

/-!
# Decoding the dump format

Each record has a decoder, which fixes the names of its fields, their order and which of them may
be missing. Every record, every array and every choice between payloads enters one array or object.

## Main definitions

* `TableDump.decoder` — the decoder of a whole symbol table.
* `Json.Decoder.anyDepth` — a decoder applied without a limit on nesting.
-/

namespace ClassSymbols

open Json (Decoder fields? onlyField? items?)
open Json.Decoder

/-- Applies a decoder with room for every array and object of the value. -/
def Json.Decoder.anyDepth {α : Type} (decoder : Decoder α) (json : Json) : Option α :=
  decoder json.nesting json

/-- A word of a vocabulary: as a string, or as the name of the only field of an object whose value
is `null`. -/
def Keyword.decoder {α : Type} [Keyword α] : Decoder α
  | _, .string word => Keyword.ofText? word
  | _ + 1, .object [(word, .null)] => Keyword.ofText? word
  | _, _ => none

def Flags.decoder {φ : Type} [Keyword φ] : Decoder (Flags φ)
  | _, .string text => Flags.ofText? text
  | _, _ => none

/-! ## Types -/

def Classifier.decoder : Decoder Classifier
  | 0, _ => none
  | n + 1, json =>
    match onlyField? json with
    | some ("class_name", value) => (word n value).map .className
    | some ("type_parameter", value) => (word n value).map .typeParameter
    | some ("type_parameter_name", value) => (word n value).map .typeParameterName
    | _ => none

mutual
def TypeRef.decoder : Decoder TypeRef
  | 0, _ => none
  | n + 1, json =>
    match onlyField? json with
    | some ("table", value) => (word n value).map .table
    | some ("inline", value) => (TypeRecord.decoder n value).map .inline
    | _ => none

def TypeRecord.decoder : Decoder TypeRecord
  | 0, _ => none
  | n + 1, json =>
    match fields? ["classifier", "arguments", "nullable"] json with
    | some [classifier, arguments, nullable] => do
      let classifier ← required (Classifier.decoder n) classifier
      let arguments ← defaulted [] (ArgumentRecord.listDecoder n) arguments
      let nullable ← defaulted false (bool n) nullable
      some (.mk classifier arguments nullable)
    | _ => none

def ArgumentRecord.listDecoder : Decoder (List ArgumentRecord)
  | 0, _ => none
  | n + 1, json => (items? json).bind (·.mapM (ArgumentRecord.decoder n))

def ArgumentRecord.decoder : Decoder ArgumentRecord
  | 0, _ => none
  | n + 1, json =>
    match fields? ["projection", "ty"] json with
    | some [projection, type] => do
      let projection ← defaulted (.varying .invariant) (Keyword.decoder n) projection
      let type ← optional (TypeRef.decoder n) type
      some (.mk projection type)
    | _ => none
end

def TypeTableRecord.decoder : Decoder TypeTableRecord
  | 0, _ => none
  | n + 1, json =>
    match fields? ["types", "first_nullable"] json with
    | some [types, firstNullable] => do
      let types ← defaulted [] (array TypeRecord.decoder n) types
      let firstNullable ← optional (word n) firstNullable
      some { types, firstNullable }
    | _ => none

/-! ## Declarations -/

def TypeParameterRecord.decoder : Decoder TypeParameterRecord
  | 0, _ => none
  | n + 1, json =>
    match fields? ["id", "name", "reified", "variance", "upper_bounds"] json with
    | some [id, name, reified, variance, upperBounds] => do
      let id ← required (word n) id
      let name ← required (word n) name
      let reified ← defaulted false (bool n) reified
      let variance ← defaulted .invariant (Keyword.decoder n) variance
      let upperBounds ← defaulted [] (array TypeRef.decoder n) upperBounds
      some { id, name, reified, variance, upperBounds }
    | _ => none

def AnnotationRecord.decoder : Decoder AnnotationRecord
  | 0, _ => none
  | n + 1, json =>
    match fields? ["class_name"] json with
    | some [className] => (required (word n) className).map fun className => { className }
    | _ => none

def ValueParameterRecord.decoder : Decoder ValueParameterRecord
  | 0, _ => none
  | n + 1, json =>
    match fields? ["flags", "name", "ty", "vararg_element_type", "annotations"] json with
    | some [flags, name, type, varargElement, annotations] => do
      let flags ← defaulted .empty (Flags.decoder n) flags
      let name ← required (word n) name
      let type ← required (TypeRef.decoder n) type
      let varargElement ← optional (TypeRef.decoder n) varargElement
      let annotations ← defaulted [] (array AnnotationRecord.decoder n) annotations
      some { flags, name, type, varargElement, annotations }
    | _ => none

def AccessorRecord.decoder : Decoder AccessorRecord
  | 0, _ => none
  | n + 1, json =>
    match fields? ["flags", "visibility", "modality"] json with
    | some [flags, visibility, modality] => do
      let flags ← defaulted .empty (Flags.decoder n) flags
      let visibility ← defaulted .everywhere (Keyword.decoder n) visibility
      let modality ← defaulted .final (Keyword.decoder n) modality
      some { flags, visibility, modality }
    | _ => none

def FunctionRecord.decoder : Decoder FunctionRecord
  | 0, _ => none
  | n + 1, json =>
    match fields? ["flags", "modality", "visibility", "name", "type_parameters", "receiver_type",
      "value_parameters", "return_type", "annotations"] json with
    | some [flags, modality, visibility, name, typeParameters, receiver, valueParameters,
        returnType, annotations] => do
      let flags ← defaulted .empty (Flags.decoder n) flags
      let modality ← defaulted .final (Keyword.decoder n) modality
      let visibility ← defaulted .everywhere (Keyword.decoder n) visibility
      let name ← required (word n) name
      let typeParameters ← defaulted [] (array TypeParameterRecord.decoder n) typeParameters
      let receiver ← optional (TypeRef.decoder n) receiver
      let valueParameters ← defaulted [] (array ValueParameterRecord.decoder n) valueParameters
      let returnType ← required (TypeRef.decoder n) returnType
      let annotations ← defaulted [] (array AnnotationRecord.decoder n) annotations
      some { flags, modality, visibility, name, typeParameters, receiver, valueParameters,
             returnType, annotations }
    | _ => none

def ConstructorRecord.decoder : Decoder ConstructorRecord
  | 0, _ => none
  | n + 1, json =>
    match fields? ["flags", "visibility", "value_parameters", "annotations"] json with
    | some [flags, visibility, valueParameters, annotations] => do
      let flags ← defaulted .empty (Flags.decoder n) flags
      let visibility ← defaulted .everywhere (Keyword.decoder n) visibility
      let valueParameters ← defaulted [] (array ValueParameterRecord.decoder n) valueParameters
      let annotations ← defaulted [] (array AnnotationRecord.decoder n) annotations
      some { flags, visibility, valueParameters, annotations }
    | _ => none

def PropertyRecord.decoder : Decoder PropertyRecord
  | 0, _ => none
  | n + 1, json =>
    match fields? ["flags", "modality", "visibility", "name", "type_parameters", "receiver_type",
      "return_type", "getter", "setter", "annotations", "used_as_variable"] json with
    | some [flags, modality, visibility, name, typeParameters, receiver, returnType, getter,
        setter, annotations, usedAsVariable] => do
      let flags ← defaulted .empty (Flags.decoder n) flags
      let modality ← defaulted .final (Keyword.decoder n) modality
      let visibility ← defaulted .everywhere (Keyword.decoder n) visibility
      let name ← required (word n) name
      let typeParameters ← defaulted [] (array TypeParameterRecord.decoder n) typeParameters
      let receiver ← optional (TypeRef.decoder n) receiver
      let returnType ← required (TypeRef.decoder n) returnType
      let getter ← optional (AccessorRecord.decoder n) getter
      let setter ← optional (AccessorRecord.decoder n) setter
      let annotations ← defaulted [] (array AnnotationRecord.decoder n) annotations
      let usedAsVariable ← defaulted false (bool n) usedAsVariable
      some { flags, modality, visibility, name, typeParameters, receiver, returnType, getter,
             setter, annotations, usedAsVariable }
    | _ => none

mutual
def ClassRecord.decoder : Decoder ClassRecord
  | 0, _ => none
  | n + 1, json =>
    match fields? ["flags", "kind", "modality", "visibility", "fq_name", "type_parameters",
      "supertypes", "constructors", "functions", "properties", "nested_classes", "type_table",
      "annotations"] json with
    | some [flags, kind, modality, visibility, qualifiedName, typeParameters, supertypes,
        constructors, functions, properties, nestedClasses, typeTable, annotations] => do
      let flags ← defaulted .empty (Flags.decoder n) flags
      let kind ← defaulted .plain (Keyword.decoder n) kind
      let modality ← defaulted .final (Keyword.decoder n) modality
      let visibility ← defaulted .everywhere (Keyword.decoder n) visibility
      let qualifiedName ← required (word n) qualifiedName
      let typeParameters ← defaulted [] (array TypeParameterRecord.decoder n) typeParameters
      let supertypes ← defaulted [] (array TypeRef.decoder n) supertypes
      let constructors ← defaulted [] (array ConstructorRecord.decoder n) constructors
      let functions ← defaulted [] (array FunctionRecord.decoder n) functions
      let properties ← defaulted [] (array PropertyRecord.decoder n) properties
      let nestedClasses ← defaulted [] (ClassRecord.listDecoder n) nestedClasses
      let typeTable ← defaulted {} (TypeTableRecord.decoder n) typeTable
      let annotations ← defaulted [] (array AnnotationRecord.decoder n) annotations
      some { flags, kind, modality, visibility, qualifiedName, typeParameters, supertypes,
             constructors, functions, properties, nestedClasses, typeTable, annotations }
    | _ => none

def ClassRecord.listDecoder : Decoder (List ClassRecord)
  | 0, _ => none
  | n + 1, json => (items? json).bind (·.mapM (ClassRecord.decoder n))
end

def LocalRecord.decoder : Decoder LocalRecord
  | 0, _ => none
  | n + 1, json =>
    match onlyField? json with
    | some ("class", value) => (ClassRecord.decoder n value).map .classRecord
    | some ("function", value) => (FunctionRecord.decoder n value).map .function
    | some ("constructor", value) => (ConstructorRecord.decoder n value).map .constructor
    | some ("property", value) => (PropertyRecord.decoder n value).map .property
    | _ => none

/-! ## Tables -/

def QualifiedNameRecord.decoder : Decoder QualifiedNameRecord
  | 0, _ => none
  | n + 1, json =>
    match fields? ["parent", "short_name", "kind"] json with
    | some [parent, shortName, kind] => do
      let parent ← optional (word n) parent
      let shortName ← required (word n) shortName
      let kind ← defaulted .package (Keyword.decoder n) kind
      some { parent, shortName, kind }
    | _ => none

def PackageRecord.decoder : Decoder PackageRecord
  | 0, _ => none
  | n + 1, json =>
    match fields? ["type_table"] json with
    | some [typeTable] =>
      (defaulted {} (TypeTableRecord.decoder n) typeTable).map fun typeTable => { typeTable }
    | _ => none

def FragmentRecord.decoder : Decoder FragmentRecord
  | 0, _ => none
  | n + 1, json =>
    match fields? ["fq_name", "strings", "qualified_names", "package", "classes",
      "local_declarations"] json with
    | some [name, strings, qualifiedNames, package, classes, localDeclarations] => do
      let name ← required (string n) name
      let strings ← defaulted [] (array string n) strings
      let qualifiedNames ← defaulted [] (array QualifiedNameRecord.decoder n) qualifiedNames
      let package ← defaulted {} (PackageRecord.decoder n) package
      let classes ← defaulted [] (ClassRecord.listDecoder n) classes
      let localDeclarations ← defaulted [] (array LocalRecord.decoder n) localDeclarations
      some { name, strings, qualifiedNames, package, classes, localDeclarations }
    | _ => none

/-- The decoder of the symbol table of a module. -/
def TableDump.decoder : Decoder TableDump
  | 0, _ => none
  | n + 1, json =>
    match fields? ["module", "fragments"] json with
    | some [module, fragments] => do
      let module ← required (string n) module
      let fragments ← defaulted [] (array FragmentRecord.decoder n) fragments
      some { module, fragments }
    | _ => none

def ClassId.decoder : Decoder ClassId
  | 0, _ => none
  | n + 1, json =>
    match fields? ["package", "relative", "local"] json with
    | some [package, relative, isLocal] => do
      let package ← required (string n) package
      let relative ← required (string n) relative
      let isLocal ← defaulted false (bool n) isLocal
      some { package, relative, isLocal }
    | _ => none

/-- The decoder of the place of a local record. -/
def RecordRef.decoder : Decoder RecordRef
  | 0, _ => none
  | n + 1, json =>
    match fields? ["fragment", "index"] json with
    | some [fragment, index] => do
      let fragment ← required (string n) fragment
      let index ← required (word n) index
      some { fragment, index }
    | _ => none

end ClassSymbols
