import ClassSymbols.Span
import ClassSymbols.Ty.Builtin

/-!
# Lowered trees

A small tree of expressions and statements. Every node carries a source span and its type.

## Main definitions

* `Node`, `NodeKind`, `Catch` — the trees.
* `Node.children` — the nodes directly below a node, in the order of evaluation.
* `Node.walk` — the nodes that a traversal visits.
-/

namespace ClassSymbols

inductive Constant where
  | null
  | boolean (value : Bool)
  | integer (value : Int64)
  | string (value : String)
  deriving DecidableEq

/-- One of the two accessors of a property. -/
inductive AccessorKind where
  | getter
  | setter
  deriving DecidableEq, Repr

def AccessorKind.label : AccessorKind → String
  | .getter => "getter"
  | .setter => "setter"

/-- What a type operator does with its argument. -/
inductive TypeOperator where
  | cast
  | coercionToUnit
  deriving DecidableEq, Repr

mutual
/-- A node: what it computes, where it comes from, and its type. -/
inductive Node where
  | mk (span : Span) (type : Ty) (kind : NodeKind)

/-- What a node computes. The constructor of a delegating call is `DeclId.invalid` if it belongs to
a builtin class. The builtin negation has arguments like any call. -/
inductive NodeKind where
  | unitValue
  | constant (value : Constant)
  | getValue (declaration : DeclId)
  | booleanNot (arguments : List Node)
  | call (callee : DeclId) (receiver : Option Node) (arguments : List Node)
  | accessorCall (property : DeclId) (accessor : AccessorKind) (receiver : Option Node)
      (arguments : List Node)
  | delegatingCall (target : ClassId) (constructor : DeclId) (arguments : List Node)
  | typeOperation (operator : TypeOperator) (operand : Ty) (argument : Node)
  | getField (property : DeclId) (receiver : Option Node)
  | setField (property : DeclId) (receiver : Option Node) (value : Node)
  | conditional (condition thenBranch : Node) (elseBranch : Option Node)
  | block (statements : List Node)
  | throw (argument : Node)
  | tryCatch (body : Node) (catches : List Catch) (cleanup : Option Node)
  | variableDeclaration (declaration : DeclId) (initializer : Option Node)
  | classBody (declaration : DeclId) (members : List Node)

/-- A clause of a `tryCatch`: the local variable that holds what was caught, and what is computed
then. -/
inductive Catch where
  | mk (span : Span) (parameter : DeclId) (parameterType : Ty) (result : Node)
end

def Catch.result : Catch → Node
  | .mk _ _ _ result => result

/-- The nodes directly inside what a node computes, in the order of evaluation. -/
def NodeKind.children : NodeKind → List Node
  | .unitValue | .constant _ | .getValue _ => []
  | .typeOperation _ _ argument | .throw argument => [argument]
  | .booleanNot arguments | .delegatingCall _ _ arguments => arguments
  | .call _ receiver arguments | .accessorCall _ _ receiver arguments =>
    receiver.toList ++ arguments
  | .getField _ receiver => receiver.toList
  | .setField _ receiver value => receiver.toList ++ [value]
  | .conditional condition thenBranch elseBranch =>
    condition :: thenBranch :: elseBranch.toList
  | .block statements => statements
  | .tryCatch body catches cleanup =>
    body :: catches.map Catch.result ++ cleanup.toList
  | .variableDeclaration _ initializer => initializer.toList
  | .classBody _ members => members

namespace Node

def span : Node → Span
  | .mk span _ _ => span

def type : Node → Ty
  | .mk _ type _ => type

def kind : Node → NodeKind
  | .mk _ _ kind => kind

def children (node : Node) : List Node := node.kind.children

end Node

theorem NodeKind.sizeOf_lt_of_mem_children {kind : NodeKind} {child : Node}
    (h : child ∈ kind.children) : sizeOf child < sizeOf kind := by
  have ofOption (o : Option Node) (m : child ∈ o.toList) : sizeOf child < sizeOf o := by
    cases o <;> simp_all
  have ofList (l : List Node) (m : child ∈ l) : sizeOf child < sizeOf l :=
    List.sizeOf_lt_of_mem m
  have ofCatches (l : List Catch) (m : child ∈ l.map Catch.result) : sizeOf child < sizeOf l := by
    obtain ⟨clause, member, rfl⟩ := List.mem_map.1 m
    have := List.sizeOf_lt_of_mem member
    cases clause
    simp_all [Catch.result]
    omega
  cases kind <;> simp only [children, List.mem_append, List.mem_cons, List.not_mem_nil,
    or_false] at h
  all_goals grind

theorem Node.sizeOf_lt_of_mem_children {node child : Node} (h : child ∈ node.children) :
    sizeOf child < sizeOf node := by
  cases node with
  | mk span type kind =>
    have := @NodeKind.sizeOf_lt_of_mem_children kind child h
    simp only [Node.mk.sizeOf_spec]
    omega

/-- Whether a traversal goes below a node that it visits. -/
inductive Descent where
  | enter
  | skip
  deriving DecidableEq, Repr

/-- The nodes that a traversal visits: a node before the nodes below it, and these in their order.
`descent` says whether the traversal goes below a node. -/
def Node.walk (descent : Node → Descent) (node : Node) : List Node :=
  node :: match descent node with
    | .skip => []
    | .enter => node.children.attach.flatMap fun ⟨child, _⟩ => child.walk descent
termination_by sizeOf node
decreasing_by exact Node.sizeOf_lt_of_mem_children ‹_›

theorem Node.walk_eq (descent : Node → Descent) (node : Node) :
    node.walk descent = node :: match descent node with
      | .skip => []
      | .enter => node.children.flatMap (·.walk descent) := by
  rw [Node.walk]
  split <;> simp [List.flatMap_subtype]

end ClassSymbols
