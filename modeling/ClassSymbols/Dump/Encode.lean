import ClassSymbols.Dump.Decode

/-!
# Encoding the dump format

Every field of a record is written, in its order, an absent option as `null`.

## Main definitions

* `TableDump.encode` — the JSON value of a whole symbol table.
* `Stored` — the types that can be both decoded and encoded.
-/

namespace ClassSymbols

def Json.ofWord (word : UInt32) : Json := .ofNat word.toNat

def Json.ofOption {α : Type} (encode : α → Json) : Option α → Json
  | none => .null
  | some a => encode a

def Json.ofList {α : Type} (encode : α → Json) (values : List α) : Json :=
  .array (values.map encode)

def Keyword.encode {α : Type} [Keyword α] (a : α) : Json := .string (Keyword.text a)

def Flags.encode {φ : Type} [Keyword φ] (flags : Flags φ) : Json := .string flags.text

open Json (ofWord ofOption)

/-! ## Types -/

def Classifier.encode : Classifier → Json
  | .className index => .object [("class_name", ofWord index)]
  | .typeParameter id => .object [("type_parameter", ofWord id)]
  | .typeParameterName index => .object [("type_parameter_name", ofWord index)]

mutual
def TypeRef.encode : TypeRef → Json
  | .table index => .object [("table", ofWord index)]
  | .inline type => .object [("inline", type.encode)]

def TypeRecord.encode : TypeRecord → Json
  | .mk classifier arguments nullable =>
    .object [("classifier", classifier.encode),
      ("arguments", .array (ArgumentRecord.encodeList arguments)),
      ("nullable", .bool nullable)]

def ArgumentRecord.encodeList : List ArgumentRecord → List Json
  | [] => []
  | argument :: rest => argument.encode :: ArgumentRecord.encodeList rest

def ArgumentRecord.encode : ArgumentRecord → Json
  | .mk projection type =>
    .object [("projection", Keyword.encode projection), ("ty", TypeRef.encodeOption type)]

def TypeRef.encodeOption : Option TypeRef → Json
  | none => .null
  | some type => type.encode
end

def TypeTableRecord.encode (record : TypeTableRecord) : Json :=
  .object [("types", .ofList TypeRecord.encode record.types),
    ("first_nullable", ofOption ofWord record.firstNullable)]

/-! ## Declarations -/

def TypeParameterRecord.encode (record : TypeParameterRecord) : Json :=
  .object [("id", ofWord record.id), ("name", ofWord record.name),
    ("reified", .bool record.reified), ("variance", Keyword.encode record.variance),
    ("upper_bounds", .ofList TypeRef.encode record.upperBounds)]

def AnnotationRecord.encode (record : AnnotationRecord) : Json :=
  .object [("class_name", ofWord record.className)]

def ValueParameterRecord.encode (record : ValueParameterRecord) : Json :=
  .object [("flags", record.flags.encode), ("name", ofWord record.name),
    ("ty", record.type.encode),
    ("vararg_element_type", ofOption TypeRef.encode record.varargElement),
    ("annotations", .ofList AnnotationRecord.encode record.annotations)]

def AccessorRecord.encode (record : AccessorRecord) : Json :=
  .object [("flags", record.flags.encode), ("visibility", Keyword.encode record.visibility),
    ("modality", Keyword.encode record.modality)]

def FunctionRecord.encode (record : FunctionRecord) : Json :=
  .object [("flags", record.flags.encode), ("modality", Keyword.encode record.modality),
    ("visibility", Keyword.encode record.visibility), ("name", ofWord record.name),
    ("type_parameters", .ofList TypeParameterRecord.encode record.typeParameters),
    ("receiver_type", ofOption TypeRef.encode record.receiver),
    ("value_parameters", .ofList ValueParameterRecord.encode record.valueParameters),
    ("return_type", record.returnType.encode),
    ("annotations", .ofList AnnotationRecord.encode record.annotations)]

def ConstructorRecord.encode (record : ConstructorRecord) : Json :=
  .object [("flags", record.flags.encode), ("visibility", Keyword.encode record.visibility),
    ("value_parameters", .ofList ValueParameterRecord.encode record.valueParameters),
    ("annotations", .ofList AnnotationRecord.encode record.annotations)]

def PropertyRecord.encode (record : PropertyRecord) : Json :=
  .object [("flags", record.flags.encode), ("modality", Keyword.encode record.modality),
    ("visibility", Keyword.encode record.visibility), ("name", ofWord record.name),
    ("type_parameters", .ofList TypeParameterRecord.encode record.typeParameters),
    ("receiver_type", ofOption TypeRef.encode record.receiver),
    ("return_type", record.returnType.encode),
    ("getter", ofOption AccessorRecord.encode record.getter),
    ("setter", ofOption AccessorRecord.encode record.setter),
    ("annotations", .ofList AnnotationRecord.encode record.annotations),
    ("used_as_variable", .bool record.usedAsVariable)]

mutual
def ClassRecord.encode : ClassRecord → Json
  | ⟨flags, kind, modality, visibility, qualifiedName, typeParameters, supertypes, constructors,
      functions, properties, nestedClasses, typeTable, annotations⟩ =>
    .object [("flags", flags.encode), ("kind", Keyword.encode kind),
      ("modality", Keyword.encode modality), ("visibility", Keyword.encode visibility),
      ("fq_name", ofWord qualifiedName),
      ("type_parameters", .ofList TypeParameterRecord.encode typeParameters),
      ("supertypes", .ofList TypeRef.encode supertypes),
      ("constructors", .ofList ConstructorRecord.encode constructors),
      ("functions", .ofList FunctionRecord.encode functions),
      ("properties", .ofList PropertyRecord.encode properties),
      ("nested_classes", .array (ClassRecord.encodeList nestedClasses)),
      ("type_table", typeTable.encode),
      ("annotations", .ofList AnnotationRecord.encode annotations)]

def ClassRecord.encodeList : List ClassRecord → List Json
  | [] => []
  | record :: rest => record.encode :: ClassRecord.encodeList rest
end

def LocalRecord.encode : LocalRecord → Json
  | .classRecord record => .object [("class", record.encode)]
  | .function record => .object [("function", record.encode)]
  | .constructor record => .object [("constructor", record.encode)]
  | .property record => .object [("property", record.encode)]

/-! ## Tables -/

def QualifiedNameRecord.encode (record : QualifiedNameRecord) : Json :=
  .object [("parent", ofOption ofWord record.parent), ("short_name", ofWord record.shortName),
    ("kind", Keyword.encode record.kind)]

def PackageRecord.encode (record : PackageRecord) : Json :=
  .object [("type_table", record.typeTable.encode)]

def FragmentRecord.encode (record : FragmentRecord) : Json :=
  .object [("fq_name", .string record.name), ("strings", .ofList .string record.strings),
    ("qualified_names", .ofList QualifiedNameRecord.encode record.qualifiedNames),
    ("package", record.package.encode),
    ("classes", .array (ClassRecord.encodeList record.classes)),
    ("local_declarations", .ofList LocalRecord.encode record.localDeclarations)]

def TableDump.encode (dump : TableDump) : Json :=
  .object [("module", .string dump.module), ("fragments", .ofList FragmentRecord.encode
    dump.fragments)]

def ClassId.encode (id : ClassId) : Json :=
  .object [("package", .string id.package), ("relative", .string id.relative),
    ("local", .bool id.isLocal)]

def RecordRef.encode (ref : RecordRef) : Json :=
  .object [("fragment", .string ref.fragment), ("index", ofWord ref.index)]

/-! ## Stored types -/

/-- A type whose values are stored as JSON values. -/
class Stored (α : Type) where
  decoder : Json.Decoder α
  encode : α → Json

instance : Stored TableDump := ⟨TableDump.decoder, TableDump.encode⟩
instance : Stored FragmentRecord := ⟨FragmentRecord.decoder, FragmentRecord.encode⟩
instance : Stored LocalRecord := ⟨LocalRecord.decoder, LocalRecord.encode⟩
instance : Stored ClassRecord := ⟨ClassRecord.decoder, ClassRecord.encode⟩
instance : Stored FunctionRecord := ⟨FunctionRecord.decoder, FunctionRecord.encode⟩
instance : Stored ConstructorRecord := ⟨ConstructorRecord.decoder, ConstructorRecord.encode⟩
instance : Stored PropertyRecord := ⟨PropertyRecord.decoder, PropertyRecord.encode⟩
instance : Stored AccessorRecord := ⟨AccessorRecord.decoder, AccessorRecord.encode⟩
instance : Stored TypeRecord := ⟨TypeRecord.decoder, TypeRecord.encode⟩
instance : Stored TypeRef := ⟨TypeRef.decoder, TypeRef.encode⟩
instance : Stored ArgumentRecord := ⟨ArgumentRecord.decoder, ArgumentRecord.encode⟩
instance : Stored TypeParameterRecord := ⟨TypeParameterRecord.decoder, TypeParameterRecord.encode⟩
instance : Stored ValueParameterRecord :=
  ⟨ValueParameterRecord.decoder, ValueParameterRecord.encode⟩
instance : Stored TypeTableRecord := ⟨TypeTableRecord.decoder, TypeTableRecord.encode⟩
instance : Stored QualifiedNameRecord := ⟨QualifiedNameRecord.decoder, QualifiedNameRecord.encode⟩
instance : Stored ClassId := ⟨ClassId.decoder, ClassId.encode⟩
instance : Stored RecordRef := ⟨RecordRef.decoder, RecordRef.encode⟩

instance {α : Type} [Stored α] : Stored (List α) :=
  ⟨Json.Decoder.array Stored.decoder, Json.ofList Stored.encode⟩

end ClassSymbols
