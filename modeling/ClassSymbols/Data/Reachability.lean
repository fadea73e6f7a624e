/-!
# Reachability

What can be reached in a graph of which only finitely many nodes have successors. The graph may have
cycles, and successors may be listed more than once.

## Main definitions

* `FiniteGraph` — the graphs.
* `FiniteGraph.Reaches` — reachability, step by step.
* `FiniteGraph.step` — one turn of a search.
* `FiniteGraph.closure` — the nodes that can be reached from a node, itself included.

## Main statements

* `FiniteGraph.pending_lt_of_step` — a turn leaves less to do, so every search ends.
-/

namespace ClassSymbols

/-- A graph in which every node with successors is listed in `support`. -/
structure FiniteGraph (α : Type) where
  successors : α → List α
  support : List α
  mem_support : ∀ a, successors a ≠ [] → a ∈ support

/-- A search in a graph: the nodes that it has visited, and a stack of nodes to look at, the top one
first. A node may be on the stack more than once. -/
structure GraphSearch (α : Type) where
  visited : List α
  stack : List α

namespace FiniteGraph

variable {α : Type} [DecidableEq α]

/-- A node reaches itself and whatever its successors reach. -/
inductive Reaches (graph : FiniteGraph α) : α → α → Prop
  | refl (a : α) : Reaches graph a a
  | head {a b c : α} : b ∈ graph.successors a → Reaches graph b c → Reaches graph a c

/-- Takes the top of the stack, unless the search is over. A node that has been visited is dropped.
Any other node is visited, and its successors are pushed in their order, so that the last one is on
top. -/
def step (graph : FiniteGraph α) : GraphSearch α → Option (GraphSearch α)
  | ⟨_, []⟩ => none
  | ⟨visited, a :: rest⟩ =>
    if a ∈ visited then some ⟨visited, rest⟩
    else some ⟨a :: visited, (graph.successors a).reverse ++ rest⟩

/-- The nodes that a search may still push: the successors of those that it has not visited. -/
def unpushed (graph : FiniteGraph α) (visited : List α) : List α :=
  (graph.support.filter (· ∉ visited)).flatMap graph.successors

/-- The number of nodes on the stack and of those that may still be pushed. -/
def pending (graph : FiniteGraph α) (search : GraphSearch α) : Nat :=
  search.stack.length + (graph.unpushed search.visited).length

/-- What a visit pushes is not pushed again. -/
theorem length_unpushed_cons_le (graph : FiniteGraph α) {a : α} {visited : List α}
    (new : a ∉ visited) :
    (graph.successors a).length + (graph.unpushed (a :: visited)).length ≤
      (graph.unpushed visited).length := by
  have without (nodes : List α) :
      (if a ∈ nodes then (graph.successors a).length else 0) +
          ((nodes.filter (· ≠ a)).flatMap graph.successors).length ≤
        (nodes.flatMap graph.successors).length := by
    induction nodes with
    | nil => simp
    | cons b rest ih => grind
  have removed : graph.unpushed (a :: visited) =
      ((graph.support.filter (· ∉ visited)).filter (· ≠ a)).flatMap graph.successors := by
    simp only [unpushed, List.filter_filter, List.mem_cons, not_or, Bool.decide_and]
  have bound := without (graph.support.filter (· ∉ visited))
  rw [← removed] at bound
  by_cases leaf : graph.successors a = []
  · simp only [leaf, List.length_nil, ite_self] at bound ⊢
    exact bound
  · rwa [if_pos (List.mem_filter.2 ⟨graph.mem_support a leaf, by simpa using new⟩)] at bound

/-- A turn takes a node from the stack, and what it pushes could have been pushed before. -/
theorem pending_lt_of_step (graph : FiniteGraph α) {search further : GraphSearch α}
    (turn : graph.step search = some further) : graph.pending further < graph.pending search := by
  obtain ⟨visited, _ | ⟨a, rest⟩⟩ := search
  · cases turn
  · by_cases known : a ∈ visited
    · obtain rfl : ⟨visited, rest⟩ = further := by simpa [step, known] using turn
      simp [pending]
    · obtain rfl : ⟨a :: visited, (graph.successors a).reverse ++ rest⟩ = further := by
        simpa [step, known] using turn
      have := graph.length_unpushed_cons_le known
      simp [pending]
      omega

def search (graph : FiniteGraph α) (search : GraphSearch α) : List α :=
  match _ : graph.step search with
  | none => search.visited
  | some further => graph.search further
termination_by graph.pending search
decreasing_by exact graph.pending_lt_of_step ‹_›

def closure (graph : FiniteGraph α) (start : α) : List α := graph.search ⟨[], [start]⟩

end FiniteGraph

end ClassSymbols
