import ClassSymbols.Proofs.Graph.Closure
import Mathlib.Data.Fintype.Card
import Mathlib.Data.Set.Finite.List

/-!
# Graphs without cycles

Between finitely many nodes that reach no cycle, the way up, from each node to one that leads to it,
ends. So each node of a list has one above it that no other node of the list reaches.

## Main definitions

* `FiniteGraph.LeadsTo` — walks of at least one step.
* `FiniteGraph.Cyclic` — whether a node reaches one that a walk leads back to.

## Main statements

* `FiniteGraph.not_cyclic_of_descends` — there is no cycle where each step descends.
* `FiniteGraph.wellFounded_leadsTo` — the way up ends.
* `FiniteGraph.exists_unreached_reaches` — each node of a list is reached by one that no other one
  reaches.
-/

namespace ClassSymbols

namespace FiniteGraph

variable {α : Type} {graph : FiniteGraph α} {nodes : List α} {a b c : α}

def LeadsTo (graph : FiniteGraph α) : α → α → Prop :=
  Relation.TransGen fun a b => b ∈ graph.successors a

def Cyclic (graph : FiniteGraph α) (a : α) : Prop := ∃ b, graph.Reaches a b ∧ graph.LeadsTo b b

theorem LeadsTo.trans (h : graph.LeadsTo a b) (g : graph.LeadsTo b c) : graph.LeadsTo a c :=
  Relation.TransGen.trans h g

theorem reaches_iff_eq_or_leadsTo : graph.Reaches a b ↔ b = a ∨ graph.LeadsTo a b := by
  rw [reaches_iff_reflTransGen, Relation.reflTransGen_iff_eq_or_transGen, LeadsTo]

/-- No walk leads back where each step descends. -/
theorem not_cyclic_of_descends (rank : α → Nat)
    (descends : ∀ a ∈ graph.support, ∀ b ∈ graph.successors a, rank b < rank a) :
    ¬graph.Cyclic a := by
  have step {c d : α} (h : d ∈ graph.successors c) : rank d < rank c :=
    descends c (graph.mem_support c (List.ne_nil_of_mem h)) d h
  have lower {c d : α} (walk : graph.LeadsTo c d) : rank d < rank c := by
    induction walk with
    | single last => exact step last
    | tail _ last ih => exact (step last).trans ih
  rintro ⟨b, -, cycle⟩
  exact Nat.lt_irrefl _ (lower cycle)

/-- The way up ends between finitely many nodes that reach no cycle. -/
theorem wellFounded_leadsTo (acyclic : ∀ a ∈ nodes, ¬graph.Cyclic a) :
    WellFounded fun b a : { a // a ∈ nodes } => graph.LeadsTo b a := by
  have finite : Finite { a // a ∈ nodes } := (List.finite_toSet nodes).to_subtype
  have transitive : IsTrans { a // a ∈ nodes } fun b a => graph.LeadsTo b a :=
    ⟨fun _ _ _ => LeadsTo.trans⟩
  have irreflexive : Std.Irrefl fun b a : { a // a ∈ nodes } => graph.LeadsTo b a :=
    ⟨fun a cycle => acyclic a a.2 ⟨a, .refl _, cycle⟩⟩
  exact Finite.wellFounded_of_trans_of_irrefl _

/-- In a list of nodes that reach no cycle, each one is reached by one that no other one of them
reaches. -/
theorem exists_unreached_reaches (acyclic : ∀ a ∈ nodes, ¬graph.Cyclic a) (ha : a ∈ nodes) :
    ∃ top ∈ nodes, graph.Reaches top a ∧ ∀ b ∈ nodes, graph.Reaches b top → b = top := by
  suffices climbs : ∀ node : { a // a ∈ nodes },
      ∃ top ∈ nodes, graph.Reaches top node ∧
        ∀ b ∈ nodes, graph.Reaches b top → b = top from climbs ⟨a, ha⟩
  intro node
  induction node using (wellFounded_leadsTo acyclic).induction with
  | _ node ih =>
    by_cases unreached : ∀ b ∈ nodes, graph.Reaches b node → b = node
    · exact ⟨node, node.2, .refl _, unreached⟩
    · obtain ⟨b, hb, reaches, other⟩ : ∃ b ∈ nodes, graph.Reaches b node ∧ b ≠ node := by
        simpa using unreached
      have above : graph.LeadsTo b node :=
        (reaches_iff_eq_or_leadsTo.1 reaches).resolve_left (Ne.symm other)
      obtain ⟨top, ht, up, free⟩ := ih ⟨b, hb⟩ above
      exact ⟨top, ht, up.trans reaches, free⟩

end FiniteGraph

end ClassSymbols
