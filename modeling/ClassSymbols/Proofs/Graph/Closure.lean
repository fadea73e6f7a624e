import ClassSymbols.Data.Reachability
import Mathlib.Data.List.Basic
import Mathlib.Logic.Relation
import Mathlib.Order.WellFounded

/-!
# Closures are reachability

A search ends with an empty stack, since each turn leaves less to do. Until then the successors of
what it has visited are visited or on the stack, and it meets nothing that its start does not reach.

## Main definitions

* `FiniteGraph.Turn` — one turn leads from a search to the next one.
* `FiniteGraph.Explores` — what stays true of a search from a node.

## Main statements

* `FiniteGraph.reaches_map_iff` — a function that takes successors to successors takes what is
  reached to what is reached.
* `FiniteGraph.turns_search` — every search ends, with an empty stack.
* `FiniteGraph.mem_closure_iff` — a node is in the closure of another one iff it can be reached.
-/

namespace ClassSymbols

namespace FiniteGraph

variable {α : Type} {graph : FiniteGraph α} {a b c : α}

theorem Reaches.trans (h : graph.Reaches a b) (g : graph.Reaches b c) : graph.Reaches a c := by
  induction h with
  | refl => exact g
  | head step _ ih => exact .head step (ih g)

theorem Reaches.single (h : b ∈ graph.successors a) : graph.Reaches a b := .head h (.refl b)

theorem reaches_iff_reflTransGen :
    graph.Reaches a b ↔ Relation.ReflTransGen (fun a b => b ∈ graph.successors a) a b := by
  constructor
  · intro h
    induction h with
    | refl => exact .refl
    | head step _ ih => exact .head step ih
  · intro h
    induction h with
    | refl => exact .refl _
    | tail _ step ih => exact ih.trans (.single step)

/-- A function that takes successors to successors takes what is reached to what is reached. -/
theorem reaches_map_iff {β : Type} {graph' : FiniteGraph β} {f : α → β} {S : α → Prop}
    (mapped : ∀ {a}, S a → ∀ y, y ∈ graph'.successors (f a) ↔ ∃ b ∈ graph.successors a, f b = y)
    (closed : ∀ {a}, S a → ∀ b ∈ graph.successors a, S b) (ha : S a) {y : β} :
    graph'.Reaches (f a) y ↔ ∃ b, graph.Reaches a b ∧ f b = y := by
  constructor
  · intro h
    generalize start : f a = x at h
    induction h generalizing a with
    | refl => exact ⟨a, .refl a, start⟩
    | head step _ ih =>
      subst start
      obtain ⟨b, hb, rfl⟩ := (mapped ha _).1 step
      obtain ⟨c, reached, e⟩ := ih (closed ha b hb) rfl
      exact ⟨c, .head hb reached, e⟩
  · rintro ⟨b, h, rfl⟩
    induction h with
    | refl => exact .refl _
    | head step _ ih =>
      exact .head ((mapped ha _).2 ⟨_, step, rfl⟩) (ih (closed ha _ step))

/-- What stays true of a search from `start`. -/
structure Explores (graph : FiniteGraph α) (start : α) (search : GraphSearch α) : Prop where
  nodup : search.visited.Nodup
  started : start ∈ search.visited ∨ start ∈ search.stack
  reached : ∀ a, a ∈ search.visited ∨ a ∈ search.stack → graph.Reaches start a
  pushed : ∀ a ∈ search.visited, ∀ b ∈ graph.successors a, b ∈ search.visited ∨ b ∈ search.stack

theorem Explores.initial (start : α) : graph.Explores start ⟨[], [start]⟩ where
  nodup := .nil
  started := .inr (List.mem_singleton.2 rfl)
  reached a ha := by
    obtain rfl : a = start := by simpa using ha
    exact .refl a
  pushed a ha := by cases ha

variable [DecidableEq α]

def Turn (graph : FiniteGraph α) (search further : GraphSearch α) : Prop :=
  graph.step search = some further

/-- No search goes on for ever, whatever it has visited and has on its stack. -/
theorem not_forall_turn (graph : FiniteGraph α) (searches : Nat → GraphSearch α) :
    ¬∀ n, graph.Turn (searches n) (searches (n + 1)) := by
  intro endless
  obtain ⟨n, still⟩ :=
    WellFounded.not_rel_apply_succ (r := (· < ·)) fun n => graph.pending (searches n)
  exact still (graph.pending_lt_of_step (endless n))

/-- Turns lead from a search to what it has visited in the end, with nothing left on the stack. -/
theorem turns_search (graph : FiniteGraph α) (search : GraphSearch α) :
    Relation.ReflTransGen graph.Turn search ⟨graph.search search, []⟩ := by
  induction search using FiniteGraph.search.induct graph with
  | case1 search last =>
    have ended : graph.search search = search.visited := by rw [FiniteGraph.search]; grind
    obtain ⟨visited, _ | ⟨a, rest⟩⟩ := search
    · rw [ended]
    · rw [step] at last
      split at last <;> cases last
  | case2 search further turn ih =>
    have resumed : graph.search search = graph.search further := by rw [FiniteGraph.search]; grind
    exact .head turn (resumed ▸ ih)

/-- A turn keeps what is true of a search. A node is visited once, and its successors are then on
the stack. -/
theorem Explores.turn {start : α} {search further : GraphSearch α} (h : graph.Explores start search)
    (turn : graph.Turn search further) : graph.Explores start further := by
  obtain ⟨visited, _ | ⟨a, rest⟩⟩ := search
  · cases turn
  obtain ⟨nodup, started, reached, pushed⟩ := h
  by_cases known : a ∈ visited
  · obtain rfl : ⟨visited, rest⟩ = further := by simpa [Turn, step, known] using turn
    exact ⟨nodup, by grind, fun b hb => reached b (by grind),
      fun b hb c hc => by have := pushed b hb c hc; grind⟩
  · obtain rfl : ⟨a :: visited, (graph.successors a).reverse ++ rest⟩ = further := by
      simpa [Turn, step, known] using turn
    have reachedTop : graph.Reaches start a := reached a (.inr List.mem_cons_self)
    refine ⟨List.nodup_cons.2 ⟨known, nodup⟩, by grind, fun b hb => ?_, fun b hb c hc => ?_⟩
    · by_cases next : b ∈ graph.successors a
      · exact reachedTop.trans (.single next)
      · exact reached b (by grind)
    · rcases List.mem_cons.1 hb with rfl | old
      · exact .inr (List.mem_append_left _ (List.mem_reverse.2 hc))
      · have := pushed b old c hc
        grind

theorem Explores.run {start : α} {search later : GraphSearch α} (h : graph.Explores start search)
    (turns : Relation.ReflTransGen graph.Turn search later) : graph.Explores start later := by
  induction turns with
  | refl => exact h
  | tail _ turn ih => exact ih.turn turn

theorem explores_closure (graph : FiniteGraph α) (start : α) :
    graph.Explores start ⟨graph.closure start, []⟩ :=
  (Explores.initial start).run (graph.turns_search ⟨[], [start]⟩)

/-- The closure of a node holds what the node reaches. -/
@[simp] theorem mem_closure_iff : a ∈ graph.closure b ↔ graph.Reaches b a := by
  obtain ⟨-, started, reached, pushed⟩ := graph.explores_closure b
  simp only [List.not_mem_nil, or_false] at started reached pushed
  refine ⟨reached a, fun h => ?_⟩
  have closed : ∀ {c d}, graph.Reaches c d → c ∈ graph.closure b → d ∈ graph.closure b := by
    intro c d hcd
    induction hcd with
    | refl => exact id
    | head step _ ih => exact fun hc => ih (pushed _ hc _ step)
  exact closed h started

end FiniteGraph

end ClassSymbols
