import ClassSymbols.Declaration.Basic
import ClassSymbols.Tree.Error

/-!
# Building trees

Nodes are made by the builder of the declaration that is being lowered, at the position of the
builder. The builder decides the type of a node: callers give the types of casts, of blocks and of
branches that have a value, and nothing else.

## Main definitions

* `Builder` — the builders.
* `Builder.call`, `Builder.getProperty`, … — the nodes they make.
* `withBuilder` — a computation with the builder of another declaration.
-/

namespace ClassSymbols

/-- Makes nodes for the body of `owner`, at the position `span`. -/
structure Builder where
  owner : DeclId
  span : Span := .undefined
  deriving DecidableEq, Repr

def Declaration.unexpected (declaration : Declaration) (expected : String) : TreeError :=
  .unexpectedDeclaration declaration.name expected declaration.kind.label

def Declaration.expectVariable (declaration : Declaration) : Except TreeError VariableData :=
  match declaration.kind with
  | .localVariable data => .ok data
  | _ => .error (declaration.unexpected "a local variable")

def Declaration.expectFunction (declaration : Declaration) : Except TreeError FunctionData :=
  match declaration.kind with
  | .function data => .ok data
  | _ => .error (declaration.unexpected "a function")

def Declaration.expectProperty (declaration : Declaration) : Except TreeError PropertyData :=
  match declaration.kind with
  | .property data => .ok data
  | _ => .error (declaration.unexpected "a property")

def Declaration.expectClass (declaration : Declaration) : Except TreeError ClassData :=
  match declaration.kind with
  | .classifier data => .ok data
  | _ => .error (declaration.unexpected "a class")

def PropertyData.accessor? (data : PropertyData) : AccessorKind → Option Accessor
  | .getter => data.getter
  | .setter => data.setter

def Declaration.expectAccessor (declaration : Declaration) (accessor : AccessorKind) :
    Except TreeError PropertyData := do
  let data ← declaration.expectProperty
  match data.accessor? accessor with
  | some _ => return data
  | none => throw (.missingAccessor declaration.name accessor)

namespace Builder

def moveTo (builder : Builder) (span : Span) : Builder := { builder with span }

def node (builder : Builder) (type : Ty) (kind : NodeKind) : Node := .mk builder.span type kind

/-! ## Values -/

def unit (builder : Builder) : Node := builder.node .unit .unitValue

def boolean (builder : Builder) (value : Bool) : Node :=
  builder.node .boolean (.constant (.boolean value))

def integer (builder : Builder) (value : Int64) : Node :=
  builder.node (.ofClass .int) (.constant (.integer value))

def string (builder : Builder) (value : String) : Node :=
  builder.node (.ofClass .string) (.constant (.string value))

/-- The missing value of a type made nullable. -/
def null (builder : Builder) (type : Ty) : Node := builder.node type.makeNullable (.constant .null)

def getValue (builder : Builder) (declaration : Declaration) : Except TreeError Node := do
  let data ← declaration.expectVariable
  return builder.node data.type (.getValue declaration.id)

/-! ## Control flow -/

def ifThen (builder : Builder) (condition thenBranch : Node) : Node :=
  builder.node .unit (.conditional condition thenBranch none)

def ifThenElse (builder : Builder) (type : Ty) (condition thenBranch elseBranch : Node) : Node :=
  builder.node type (.conditional condition thenBranch (some elseBranch))

def negation (builder : Builder) (argument : Node) : Node :=
  builder.node .boolean (.booleanNot [argument])

def throwing (builder : Builder) (argument : Node) : Node :=
  builder.node .nothing (.throw argument)

def catching (builder : Builder) (parameter : Declaration) (result : Node) :
    Except TreeError Catch := do
  let data ← parameter.expectVariable
  return .mk builder.span parameter.id data.type result

def tryCatch (builder : Builder) (type : Ty) (body : Node) (catches : List Catch)
    (cleanup : Option Node) : Node :=
  builder.node type (.tryCatch body catches cleanup)

def block (builder : Builder) (statements : List Node) (type : Ty) : Node :=
  builder.node type (.block statements)

/-- A block in the place of an expression: at the same position and of the same type. -/
def blockReplacing (builder : Builder) (expression : Node) (statements : List Node) : Node :=
  (builder.moveTo expression.span).block statements expression.type

/-! ## Type operators -/

def cast (builder : Builder) (argument : Node) (type operand : Ty) : Node :=
  builder.node type (.typeOperation .cast operand argument)

def coercion (builder : Builder) (argument : Node) : Node :=
  builder.node .unit (.typeOperation .coercionToUnit .unit argument)

/-! ## Calls and fields -/

def call (builder : Builder) (function : Declaration) (receiver : Option Node)
    (arguments : List Node) : Except TreeError Node := do
  let data ← function.expectFunction
  return builder.node data.returnType (.call function.id receiver arguments)

def getProperty (builder : Builder) (receiver : Option Node) (property : Declaration) :
    Except TreeError Node := do
  let data ← property.expectAccessor .getter
  return builder.node data.type (.accessorCall property.id .getter receiver [])

def setProperty (builder : Builder) (receiver : Option Node) (property : Declaration)
    (value : Node) : Except TreeError Node := do
  let _ ← property.expectAccessor .setter
  return builder.node .unit (.accessorCall property.id .setter receiver [value])

def getField (builder : Builder) (receiver : Option Node) (property : Declaration) :
    Except TreeError Node := do
  let data ← property.expectProperty
  return builder.node data.type (.getField property.id receiver)

def setField (builder : Builder) (receiver : Option Node) (property : Declaration)
    (value : Node) : Except TreeError Node := do
  let _ ← property.expectProperty
  return builder.node .unit (.setField property.id receiver value)

def delegatingCall (builder : Builder) (target : ClassId) (constructor : DeclId)
    (arguments : List Node) : Node :=
  builder.node .unit (.delegatingCall target constructor arguments)

/-! ## Declarations -/

def variableDeclaration (builder : Builder) (declaration : Declaration)
    (initializer : Option Node) : Except TreeError Node := do
  let _ ← declaration.expectVariable
  return builder.node .unit (.variableDeclaration declaration.id initializer)

def classBody (builder : Builder) (declaration : Declaration) (members : List Node) :
    Except TreeError Node := do
  let _ ← declaration.expectClass
  return builder.node .unit (.classBody declaration.id members)

end Builder

/-! ## The current builder -/

/-- Computations under a current builder, if there is one. -/
abbrev BuilderM (ε : Type) := ExceptT ε (StateM (Option Builder))

/-- The current builder, which must be there. -/
def currentBuilder (builder : Option Builder) : Except TreeError Builder :=
  match builder with
  | some builder => .ok builder
  | none => .error .noActiveBuilder

/-- Runs a computation with a fresh builder for `owner`. The builder before it is current again
afterwards, whether the computation fails or not. -/
def withBuilder {ε α : Type} (owner : DeclId) (body : BuilderM ε α) : BuilderM ε α :=
  fun previous => ((body (some { owner })).1, previous)

end ClassSymbols
