import ClassSymbols.Proofs.Dump.FlagText
import ClassSymbols.Proofs.Json.Decoding

/-!
# Stored symbol tables are read back

Every record of the dump format is restored by its decoder. Each proof follows the fields of the
record in their order: words, texts, vocabularies and flag sets are read back from any value, and
the other fields by what has been proved of their own records. Types lie inside types and classes
inside classes, so that these are induction on the record.

## Main statements

* `TypeRef.restores`, `ClassRecord.restores` — types and classes are restored at every depth.
* `TableDump.anyDepth_encode` — symbol tables are restored.
-/

namespace ClassSymbols

open Json (ofWord ofOption fields?_object onlyField?)
open Json.Decoder

@[simp] theorem Flags.decoder_encode {φ : Type} [Keyword φ] [FlagNames φ] (n : Nat)
    (flags : Flags φ) :
    Flags.decoder n flags.encode = some flags := by
  have unfolded : (Flags.decoder n flags.encode : Option (Flags φ)) = Flags.ofText? flags.text := by
    cases n <;> rfl
  rw [unfolded, Flags.ofText?_text]

/-! ## Types -/

theorem Classifier.restores (classifier : Classifier) : decoder.Restores encode classifier := by
  cases classifier <;>
    exact .of_fields rfl fun n _ => by simp [decoder, onlyField?]

theorem ArgumentRecord.encodeList_eq (arguments : List ArgumentRecord) :
    encodeList arguments = arguments.map encode := by
  induction arguments with
  | nil => rfl
  | cons argument rest ih => rw [encodeList, ih, List.map_cons]

theorem ArgumentRecord.listDecoder_eq (n : Nat) (json : Json) :
    listDecoder n json = Json.Decoder.array decoder n json := by
  cases n <;> rfl

theorem TypeRef.encodeOption_eq (option : Option TypeRef) :
    encodeOption option = ofOption encode option := by
  cases option <;> rfl

theorem TypeRef.encode_ne_null (type : TypeRef) : type.encode ≠ .null := by
  cases type <;> simp [encode]

mutual
theorem TypeRef.restores : ∀ type : TypeRef, TypeRef.decoder.Restores TypeRef.encode type
  | .table index => .of_fields rfl fun n _ => by simp [TypeRef.decoder, onlyField?]
  | .inline type => .of_fields rfl fun n fits => by
    have read := TypeRecord.restores type n (fits _ List.mem_cons_self)
    simp [TypeRef.decoder, onlyField?, read]

theorem TypeRecord.restores :
    ∀ type : TypeRecord, TypeRecord.decoder.Restores TypeRecord.encode type
  | .mk classifier arguments nullable => .of_fields rfl fun n fits => by
    simp only [List.forall_mem_cons, ArgumentRecord.encodeList_eq] at fits
    obtain ⟨classifierFits, argumentsFit, -⟩ := fits
    have classifier := classifier.restores n classifierFits
    have arguments := Restores.array (ArgumentRecord.restoresAll arguments) n argumentsFit
    rw [Json.ofList] at arguments
    simp [TypeRecord.decoder, fields?_object, required, defaulted, classifier,
      ArgumentRecord.listDecoder_eq, ArgumentRecord.encodeList_eq, arguments]

theorem ArgumentRecord.restoresAll : ∀ arguments : List ArgumentRecord,
    ∀ argument ∈ arguments, ArgumentRecord.decoder.Restores ArgumentRecord.encode argument
  | [] => List.forall_mem_nil _
  | first :: rest =>
    List.forall_mem_cons.2 ⟨ArgumentRecord.restores first, ArgumentRecord.restoresAll rest⟩

theorem ArgumentRecord.restores :
    ∀ argument : ArgumentRecord, ArgumentRecord.decoder.Restores ArgumentRecord.encode argument
  | .mk projection none => .of_fields rfl fun n _ => by
    simp [ArgumentRecord.decoder, fields?_object, defaulted, Json.Decoder.optional,
      TypeRef.encodeOption]
  | .mk projection (some type) => .of_fields rfl fun n fits => by
    simp only [List.forall_mem_cons, TypeRef.encodeOption_eq] at fits
    have read : ∀ other, some type = some other →
        TypeRef.decoder.Restores TypeRef.encode other := by
      rintro _ ⟨⟩
      exact TypeRef.restores type
    have type := Restores.optional read TypeRef.encode_ne_null fits.2.1
    simp [ArgumentRecord.decoder, fields?_object, defaulted, TypeRef.encodeOption_eq, type]
end

theorem TypeRef.restores_optional {type : Option TypeRef} {n : Nat}
    (room : (ofOption encode type).nesting ≤ n) :
    Json.Decoder.optional (decoder n) (some (ofOption encode type)) = some type :=
  Restores.optional (fun a _ => a.restores) encode_ne_null room

theorem restores_optional_word {n : Nat} (value : Option UInt32) :
    Json.Decoder.optional (word n) (some (ofOption ofWord value)) = some value := by
  cases value with
  | none => rfl
  | some value =>
    have read := word_ofWord n value
    rw [ofWord, Json.ofNat] at read
    simp [ofOption, ofWord, Json.ofNat, Json.Decoder.optional, read]

theorem TypeTableRecord.restores (record : TypeTableRecord) : decoder.Restores encode record :=
  .of_fields rfl fun n fits => by
    simp only [List.forall_mem_cons] at fits
    obtain ⟨types, -⟩ := fits
    have types := Restores.array (fun type _ => TypeRecord.restores type) n types
    simp [decoder, fields?_object, defaulted, types, restores_optional_word]

/-! ## Declarations -/

theorem TypeParameterRecord.restores (record : TypeParameterRecord) :
    decoder.Restores encode record :=
  .of_fields rfl fun n fits => by
    simp only [List.forall_mem_cons] at fits
    obtain ⟨-, -, -, -, bounds, -⟩ := fits
    have bounds := Restores.array (fun type _ => TypeRef.restores type) n bounds
    simp [decoder, fields?_object, required, defaulted, bounds]

theorem AnnotationRecord.restores (record : AnnotationRecord) : decoder.Restores encode record :=
  .of_fields rfl fun n _ => by simp [decoder, fields?_object, required]

theorem ValueParameterRecord.restores (record : ValueParameterRecord) :
    decoder.Restores encode record :=
  .of_fields rfl fun n fits => by
    simp only [List.forall_mem_cons] at fits
    obtain ⟨-, -, type, element, annotations, -⟩ := fits
    have type := record.type.restores n type
    have element := TypeRef.restores_optional element
    have annotations :=
      Restores.array (fun annotation _ => AnnotationRecord.restores annotation) n annotations
    simp [decoder, fields?_object, required, defaulted, type, element, annotations]

theorem AccessorRecord.restores (record : AccessorRecord) : decoder.Restores encode record :=
  .of_fields rfl fun n _ => by simp [decoder, fields?_object, defaulted]

theorem FunctionRecord.restores (record : FunctionRecord) : decoder.Restores encode record :=
  .of_fields rfl fun n fits => by
    simp only [List.forall_mem_cons] at fits
    obtain ⟨-, -, -, -, parameters, receiver, values, type, annotations, -⟩ := fits
    have parameters :=
      Restores.array (fun parameter _ => TypeParameterRecord.restores parameter) n parameters
    have receiver := TypeRef.restores_optional receiver
    have values := Restores.array (fun value _ => ValueParameterRecord.restores value) n values
    have type := record.returnType.restores n type
    have annotations :=
      Restores.array (fun annotation _ => AnnotationRecord.restores annotation) n annotations
    simp [decoder, fields?_object, required, defaulted, parameters, receiver, values, type,
      annotations]

theorem ConstructorRecord.restores (record : ConstructorRecord) : decoder.Restores encode record :=
  .of_fields rfl fun n fits => by
    simp only [List.forall_mem_cons] at fits
    obtain ⟨-, -, values, annotations, -⟩ := fits
    have values := Restores.array (fun value _ => ValueParameterRecord.restores value) n values
    have annotations :=
      Restores.array (fun annotation _ => AnnotationRecord.restores annotation) n annotations
    simp [decoder, fields?_object, defaulted, values, annotations]

theorem AccessorRecord.restores_optional {accessor : Option AccessorRecord} {n : Nat}
    (room : (ofOption encode accessor).nesting ≤ n) :
    Json.Decoder.optional (decoder n) (some (ofOption encode accessor)) = some accessor :=
  Restores.optional (fun a _ => a.restores) (by simp [encode]) room

theorem PropertyRecord.restores (record : PropertyRecord) : decoder.Restores encode record :=
  .of_fields rfl fun n fits => by
    simp only [List.forall_mem_cons] at fits
    obtain ⟨-, -, -, -, parameters, receiver, type, getter, setter, annotations, -⟩ := fits
    have parameters :=
      Restores.array (fun parameter _ => TypeParameterRecord.restores parameter) n parameters
    have receiver := TypeRef.restores_optional receiver
    have type := record.returnType.restores n type
    have getter := AccessorRecord.restores_optional getter
    have setter := AccessorRecord.restores_optional setter
    have annotations :=
      Restores.array (fun annotation _ => AnnotationRecord.restores annotation) n annotations
    simp [decoder, fields?_object, required, defaulted, parameters, receiver, type, getter, setter,
      annotations]

theorem ClassRecord.encodeList_eq (records : List ClassRecord) :
    encodeList records = records.map encode := by
  induction records with
  | nil => rfl
  | cons record rest ih => rw [encodeList, ih, List.map_cons]

theorem ClassRecord.listDecoder_eq (n : Nat) (json : Json) :
    listDecoder n json = Json.Decoder.array decoder n json := by
  cases n <;> rfl

mutual
theorem ClassRecord.restores :
    ∀ record : ClassRecord, ClassRecord.decoder.Restores ClassRecord.encode record
  | ⟨flags, kind, modality, visibility, qualifiedName, typeParameters, supertypes, constructors,
    functions, properties, nestedClasses, typeTable, annotations⟩ => .of_fields rfl fun n fits => by
    simp only [List.forall_mem_cons, ClassRecord.encodeList_eq] at fits
    obtain ⟨-, -, -, -, -, parametersFit, supertypesFit, constructorsFit, functionsFit,
      propertiesFit, nestedFit, tableFits, annotationsFit, -⟩ := fits
    have parameters :=
      Restores.array (fun parameter _ => TypeParameterRecord.restores parameter) n parametersFit
    have supertypes := Restores.array (fun type _ => TypeRef.restores type) n supertypesFit
    have constructors :=
      Restores.array (fun record _ => ConstructorRecord.restores record) n constructorsFit
    have functions := Restores.array (fun record _ => FunctionRecord.restores record) n functionsFit
    have properties :=
      Restores.array (fun record _ => PropertyRecord.restores record) n propertiesFit
    have nested := Restores.array (ClassRecord.restoresAll nestedClasses) n nestedFit
    have table := typeTable.restores n tableFits
    have annotations :=
      Restores.array (fun annotation _ => AnnotationRecord.restores annotation) n annotationsFit
    rw [Json.ofList] at nested
    simp [ClassRecord.decoder, fields?_object, required, defaulted, parameters, supertypes,
      constructors, functions, properties, ClassRecord.listDecoder_eq, ClassRecord.encodeList_eq,
      nested, table, annotations]

theorem ClassRecord.restoresAll : ∀ records : List ClassRecord,
    ∀ record ∈ records, ClassRecord.decoder.Restores ClassRecord.encode record
  | [] => List.forall_mem_nil _
  | first :: rest =>
    List.forall_mem_cons.2 ⟨ClassRecord.restores first, ClassRecord.restoresAll rest⟩
end

/-- A local record is read back from the only field of an object, which says what the record
declares. -/
theorem LocalRecord.restores (record : LocalRecord) : decoder.Restores encode record := by
  cases record with
  | classRecord record =>
    refine .of_fields rfl fun n fits => ?_
    have read := record.restores n (fits _ List.mem_cons_self)
    simp [decoder, onlyField?, read]
  | function record =>
    refine .of_fields rfl fun n fits => ?_
    have read := record.restores n (fits _ List.mem_cons_self)
    simp [decoder, onlyField?, read]
  | constructor record =>
    refine .of_fields rfl fun n fits => ?_
    have read := record.restores n (fits _ List.mem_cons_self)
    simp [decoder, onlyField?, read]
  | property record =>
    refine .of_fields rfl fun n fits => ?_
    have read := record.restores n (fits _ List.mem_cons_self)
    simp [decoder, onlyField?, read]

/-! ## Tables -/

theorem QualifiedNameRecord.restores (record : QualifiedNameRecord) :
    decoder.Restores encode record :=
  .of_fields rfl fun n _ => by
    simp [decoder, fields?_object, required, defaulted, restores_optional_word]

theorem PackageRecord.restores (record : PackageRecord) : decoder.Restores encode record :=
  .of_fields rfl fun n fits => by
    have table := record.typeTable.restores n (fits _ List.mem_cons_self)
    simp [decoder, fields?_object, defaulted, table]

theorem FragmentRecord.restores (record : FragmentRecord) : decoder.Restores encode record :=
  .of_fields rfl fun n fits => by
    simp only [List.forall_mem_cons, ClassRecord.encodeList_eq] at fits
    obtain ⟨-, strings, names, package, classes, locals, -⟩ := fits
    have strings := Restores.array (fun text _ => restores_string text) n strings
    have names := Restores.array (fun name _ => QualifiedNameRecord.restores name) n names
    have package := record.package.restores n package
    have classes := Restores.array (fun record _ => ClassRecord.restores record) n classes
    have locals := Restores.array (fun record _ => LocalRecord.restores record) n locals
    rw [Json.ofList] at classes
    simp [decoder, fields?_object, required, defaulted, strings, names, package,
      ClassRecord.listDecoder_eq, ClassRecord.encodeList_eq, classes, locals]

theorem TableDump.restores (dump : TableDump) : decoder.Restores encode dump :=
  .of_fields rfl fun n fits => by
    simp only [List.forall_mem_cons] at fits
    obtain ⟨-, fragments, -⟩ := fits
    have fragments :=
      Restores.array (fun fragment _ => FragmentRecord.restores fragment) n fragments
    simp [decoder, fields?_object, required, defaulted, fragments]

/-- A symbol table is read back from its JSON value. -/
theorem TableDump.anyDepth_encode (dump : TableDump) : decoder.anyDepth dump.encode = some dump :=
  dump.restores.anyDepth

end ClassSymbols
