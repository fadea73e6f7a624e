import ClassSymbols.Limits
import ClassSymbols.Scope.Context
import ClassSymbols.SymbolError

/-!
# Reading types

A stored type is read in a context: table numbers in its type table, names in its name table, type
parameters in its scope. Entries of a type table may refer to one another in a cycle, so types are
read down to a limited depth.

## Main definitions

* `ScopeContext.readType` — the type that a reference stands for.
* `ScopeContext.readTypeRecord` — the type of a stored one.
-/

namespace ClassSymbols

namespace ScopeContext

/-- The type without arguments that a classifier stands for. -/
def readClassifier (context : ScopeContext) : Classifier → Except SymbolError Ty
  | .className index => do
    let id ← (context.names.classId index).mapError .ofTableError
    return .ofClass id
  | .typeParameter id =>
    match context.parameters.find? id with
    | some parameter => .ok parameter.asType
    | none => .error (.unresolvedType id "" "")
  | .typeParameterName index => do
    let name ← (context.names.string index).mapError .ofTableError
    match context.parameters.findByName? name with
    | some parameter => return parameter.asType
    | none => throw (.unresolvedName index "" "")

/-- The stored type that a reference names, in place or in the type table. -/
def lookupType (context : ScopeContext) : TypeRef → Except SymbolError TypeRecord
  | .table index => (context.types.get index).mapError .ofTableError
  | .inline type => .ok type

/-- The argument of a stored one, whose type `read` reads. Any type of a star projection is
ignored. -/
def readArgument (read : TypeRef → Except SymbolError Ty) :
    ArgumentRecord → Except SymbolError TypeArgument
  | .mk .star _ => .ok .star
  | .mk (.varying variance) (some type) => (read type).map (.projected variance)
  | .mk (.varying _) none =>
    .error (.corruptTable (.corrupt "type" "projected type argument without a type"))

/-- The type of a stored one, with room for a number of levels, itself included. -/
def readWithin (context : ScopeContext) : Nat → TypeRecord → Except SymbolError Ty
  | 0, _ =>
    .error (.corruptTable (.corrupt "type"
      ("type nesting exceeds " ++ toString Limits.typeDepth ++ " levels")))
  | room + 1, .mk classifier arguments nullable => do
    let head ← context.readClassifier classifier
    let arguments ← arguments.mapM <| readArgument fun type => do
      readWithin context room (← context.lookupType type)
    let type := head.withArguments arguments
    return if nullable then type.makeNullable else type

/-- The type of a stored one. Its arguments may nest as many levels below it as the limit says. -/
def readTypeRecord (context : ScopeContext) (record : TypeRecord) : Except SymbolError Ty :=
  context.readWithin (Limits.typeDepth + 1) record

def readType (context : ScopeContext) (type : TypeRef) : Except SymbolError Ty := do
  context.readTypeRecord (← context.lookupType type)

end ScopeContext

end ClassSymbols
