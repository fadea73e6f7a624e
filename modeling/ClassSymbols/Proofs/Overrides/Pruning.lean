import ClassSymbols.Proofs.Graph.Acyclic
import ClassSymbols.Proofs.Overrides.RenamedRuns

/-!
# Lookups that know less

A lookup may know of some members what another lookup knows, and of the others nothing. Members from
which it is led to one of the others, and nowhere else, still reach each other as in the other
lookup: whatever is beyond that member is beyond all of them.

## Main definitions

* `FiniteGraph.RestsOn` — whether a node leads to one node of which nothing is known, or to none.
* `FiniteGraph.Prunes` — whether a graph knows less than another one.

## Main statements

* `FiniteGraph.Prunes.reaches_iff` — nodes that rest on the same node reach each other alike.
* `SettlesAlike.of_prunes` — members are settled alike if those that meet meet in the smaller
  lookup, too.
* `Bucket.Joined.exists_restsOn` — the members of a joined bucket rest on the same member.
-/

namespace ClassSymbols

namespace FiniteGraph

variable {α : Type} {graph pruned : FiniteGraph α} {kept S members : α → Prop} {a b root : α}
  {base base' : Option α}

/-- Whether all that a node reaches is kept, apart from at most one node. That node has no
successors, and all that the first one reaches leads to it. -/
def RestsOn (graph : FiniteGraph α) (kept : α → Prop) (a : α) : Option α → Prop
  | none => ∀ b, graph.Reaches a b → kept b
  | some root => ¬kept root ∧ graph.successors root = [] ∧
      ∀ b, graph.Reaches a b → graph.Reaches b root ∧ (kept b ∨ b = root)

theorem eq_of_reaches_of_successors_eq_nil (leaf : graph.successors a = [])
    (reached : graph.Reaches a b) : b = a := by
  cases reached with
  | refl => rfl
  | head step _ => simp [leaf] at step

/-- A graph in which the nodes that one reaches have the same successors reaches the same from
it. -/
theorem reaches_congr {graph' : FiniteGraph α}
    (same : ∀ b, graph.Reaches a b → graph'.successors b = graph.successors b) :
    graph'.Reaches a b ↔ graph.Reaches a b := by
  refine (reaches_map_iff (f := id) (S := graph.Reaches a) (fun {b} reached y => ?_)
    (fun reached c step => reached.trans (.single step)) (.refl a)).trans ?_
  · rw [id, same b reached]
    exact ⟨fun hy => ⟨y, hy, rfl⟩, fun ⟨_, hy, e⟩ => e ▸ hy⟩
  · exact ⟨fun ⟨_, reached, e⟩ => e ▸ reached, fun reached => ⟨b, reached, rfl⟩⟩

namespace RestsOn

theorem congr {graph' : FiniteGraph α}
    (same : ∀ b, graph.Reaches a b → graph'.successors b = graph.successors b)
    (h : graph.RestsOn kept a base) : graph'.RestsOn kept a base := by
  have reaches {b c : α} (reached : graph.Reaches a b) :
      graph'.Reaches b c ↔ graph.Reaches b c :=
    reaches_congr fun c further => same c (reached.trans further)
  cases base with
  | none => exact fun b reached => h b ((reaches (.refl a)).1 reached)
  | some root =>
    obtain ⟨unkept, leaf, leads⟩ := h
    refine ⟨unkept, ?_, fun b reached => ?_⟩
    · rw [same root (leads a (.refl a)).1, leaf]
    · have reached := (reaches (.refl a)).1 reached
      exact ⟨(reaches reached).2 (leads b reached).1, (leads b reached).2⟩

theorem of_reaches (h : graph.RestsOn kept a base) (reached : graph.Reaches a b) :
    graph.RestsOn kept b base := by
  cases base with
  | none => exact fun c further => h c (reached.trans further)
  | some root => exact ⟨h.1, h.2.1, fun c further => h.2.2 c (reached.trans further)⟩

/-- A node that is not kept is the one that it rests on. -/
theorem eq_some_of_not_kept (h : graph.RestsOn kept a base) (unkept : ¬kept a) :
    base = some a ∧ graph.successors a = [] := by
  cases base with
  | none => exact absurd (h a (.refl a)) unkept
  | some root =>
    obtain rfl := (h.2.2 a (.refl a)).2.resolve_left unkept
    exact ⟨rfl, h.2.1⟩

/-- No node rests on two nodes. -/
theorem unique (h : graph.RestsOn kept a base) (h' : graph.RestsOn kept a base') :
    base = base' := by
  have root {root : α} (h : graph.RestsOn kept a (some root))
      (h' : graph.RestsOn kept a base') : some root = base' :=
    ((h'.of_reaches (h.2.2 a (.refl a)).1).eq_some_of_not_kept h.1).1.symm
  cases base with
  | some _ => exact root h h'
  | none =>
    cases base' with
    | none => rfl
    | some other =>
      exact absurd (h other (h'.2.2 a (.refl a)).1) h'.1

/-- Nodes that meet rest on the same node. -/
theorem eq_of_meet (h : graph.RestsOn kept a base) (h' : graph.RestsOn kept b base')
    (meet : graph.Meet a b) : base = base' := by
  obtain ⟨c, left, right⟩ := meet
  exact (h.of_reaches left).unique (h'.of_reaches right)

/-- So do nodes that are chained by members that rest on some node. -/
theorem of_chained (h : graph.RestsOn kept a base) (chain : graph.Chained members a b)
    (traced : ∀ c, members c → ∃ base, graph.RestsOn kept c base) : graph.RestsOn kept b base := by
  induction chain with
  | refl => exact h
  | tail _ step ih =>
    obtain ⟨base', h'⟩ := traced _ step.1
    exact ih.eq_of_meet h' step.2 ▸ h'

/-- A kept node rests on the node that its successors rest on. -/
theorem of_successors (own : kept a) (nonempty : graph.successors a ≠ [])
    (all : ∀ b ∈ graph.successors a, graph.RestsOn kept b base) : graph.RestsOn kept a base := by
  have cases {b : α} (reached : graph.Reaches a b) :
      b = a ∨ ∃ c ∈ graph.successors a, graph.Reaches c b := by
    cases reached with
    | refl => exact .inl rfl
    | head step further => exact .inr ⟨_, step, further⟩
  obtain ⟨first, hf⟩ := List.exists_mem_of_ne_nil _ nonempty
  cases base with
  | none =>
    intro b reached
    rcases cases reached with rfl | ⟨c, hc, further⟩
    · exact own
    · exact all c hc b further
  | some root =>
    obtain ⟨unkept, leaf, leads⟩ := all first hf
    refine ⟨unkept, leaf, fun b reached => ?_⟩
    rcases cases reached with rfl | ⟨c, hc, further⟩
    · exact ⟨.head hf (leads first (.refl first)).1, .inl own⟩
    · exact (all c hc).2.2 b further

end RestsOn

/-- A node without successors rests on itself, unless it is kept. -/
theorem exists_restsOn_of_successors_eq_nil (leaf : graph.successors a = []) :
    ∃ base, graph.RestsOn kept a base := by
  by_cases own : kept a
  · exact ⟨none, fun b reached => eq_of_reaches_of_successors_eq_nil leaf reached ▸ own⟩
  · refine ⟨some a, own, leaf, fun b reached => ?_⟩
    obtain rfl := eq_of_reaches_of_successors_eq_nil leaf reached
    exact ⟨.refl b, .inr rfl⟩

/-- Whether a graph knows the successors of some nodes, as another graph does. No cycle of the
latter is reached from the nodes that are looked at. -/
structure Prunes (pruned graph : FiniteGraph α) (kept S : α → Prop) : Prop where
  closed : ∀ {a}, S a → ∀ b ∈ graph.successors a, S b
  agrees : ∀ {a}, S a → kept a → ∀ b, b ∈ pruned.successors a ↔ b ∈ graph.successors a
  acyclic : ∀ {a b}, S a → graph.Reaches a b → graph.Reaches b a → a = b

namespace Prunes

variable (h : Prunes pruned graph kept S)
include h

theorem closed_of_reaches (ha : S a) (reached : graph.Reaches a b) : S b := by
  induction reached with
  | refl => exact ha
  | head step _ ih => exact ih (h.closed ha _ step)

/-- What is reached in the smaller graph is reached in the other one. -/
theorem reaches_of_pruned (ha : S a) (rests : pruned.RestsOn kept a base)
    (reached : pruned.Reaches a b) : graph.Reaches a b := by
  induction reached with
  | refl => exact .refl _
  | @head a b c step further ih =>
    have own : kept a := by
      by_contra unkept
      simp [(rests.eq_some_of_not_kept unkept).2] at step
    have step' := (h.agrees ha own b).1 step
    exact .head step' (ih (h.closed ha b step') (rests.of_reaches (.single step)))

/-- What is reached in the larger graph is reached in the smaller one, or is beyond the node that is
not kept. -/
theorem reaches_or (ha : S a) (rests : pruned.RestsOn kept a base) (reached : graph.Reaches a b) :
    pruned.Reaches a b ∨ ∃ root, base = some root ∧ graph.Reaches root b := by
  induction reached with
  | refl => exact .inl (.refl _)
  | @head a b c step further ih =>
    by_cases own : kept a
    · have step' := (h.agrees ha own b).2 step
      rcases ih (h.closed ha b step) (rests.of_reaches (.single step')) with inside | beyond
      · exact .inl (.head step' inside)
      · exact .inr beyond
    · exact .inr ⟨a, (rests.eq_some_of_not_kept own).1, .head step further⟩

/-- Nodes that rest on the same node reach each other in both graphs alike. -/
theorem reaches_iff (ha : S a) (rests : pruned.RestsOn kept a base)
    (rests' : pruned.RestsOn kept b base) : pruned.Reaches a b ↔ graph.Reaches a b := by
  refine ⟨h.reaches_of_pruned ha rests, fun reached => ?_⟩
  rcases h.reaches_or ha rests reached with inside | ⟨root, rfl, back⟩
  · exact inside
  · -- What is beyond the root leads to no node that leads to the root.
    have hb := h.closed_of_reaches ha reached
    have forth := h.reaches_of_pruned hb rests' (rests'.2.2 b (.refl b)).1
    obtain rfl := h.acyclic hb forth back
    exact (rests.2.2 a (.refl a)).1

theorem meet_of_pruned (ha : S a) (hb : S b) (rests : pruned.RestsOn kept a base)
    (rests' : pruned.RestsOn kept b base') (meet : pruned.Meet a b) : graph.Meet a b := by
  obtain ⟨c, left, right⟩ := meet
  exact ⟨c, h.reaches_of_pruned ha rests left, h.reaches_of_pruned hb rests' right⟩

/-- Nodes that rest on the same node and meet in the larger graph meet in the smaller one. -/
theorem pruned_meet (ha : S a) (hb : S b) (rests : pruned.RestsOn kept a base)
    (rests' : pruned.RestsOn kept b base) (meet : graph.Meet a b) : pruned.Meet a b := by
  cases base with
  | some root => exact ⟨root, (rests.2.2 a (.refl a)).1, (rests'.2.2 b (.refl b)).1⟩
  | none =>
    obtain ⟨c, left, right⟩ := meet
    have inside := (h.reaches_or ha rests left).resolve_right (by simp)
    exact ⟨c, inside, (h.reaches_or hb rests' right).resolve_right (by simp)⟩

end Prunes

end FiniteGraph

/-! ## Buckets -/

variable {lookup lookup' : OverriddenLookup} {kept S : DeclId → Prop} {ids : List DeclId}

/-- Members are settled alike in a lookup that knows less, if those that meet meet there, too. -/
theorem SettlesAlike.of_prunes (prunes : lookup.Prunes lookup' kept S) (inside : ∀ a ∈ ids, S a)
    (traced : ∀ a ∈ ids, ∃ base, lookup.RestsOn kept a base)
    (meets : ∀ a ∈ ids, ∀ b ∈ ids, lookup'.Meet a b → lookup.Meet a b) :
    SettlesAlike id lookup lookup' ids where
  clusters := by
    have meet_iff {a b : DeclId} (ha : a ∈ ids) (hb : b ∈ ids) :
        lookup'.Meet a b ↔ lookup.Meet a b := by
      obtain ⟨_, rests⟩ := traced a ha
      obtain ⟨_, rests'⟩ := traced b hb
      exact ⟨meets a ha b hb, prunes.meet_of_pruned (inside a ha) (inside b hb) rests rests'⟩
    have linked : linkedAt (ids.map lookup'.closure) = linkedAt (ids.map lookup.closure) := by
      funext i j
      rw [Bool.eq_iff_iff, linkedAt_closures_iff, linkedAt_closures_iff]
      refine exists₂_congr fun a b => and_congr_right fun ha => and_congr_right fun hb => ?_
      exact meet_iff (List.mem_of_getElem? ha) (List.mem_of_getElem? hb)
    rw [List.map_id, clusters_eq, clusters_eq, linked, List.length_map, List.length_map]
  reaches a ha b hb := by
    obtain ⟨base, rests⟩ := traced a ha
    obtain ⟨base', rests'⟩ := traced b hb
    have same (meet : lookup.Meet a b) : lookup.Reaches a b ↔ lookup'.Reaches a b :=
      prunes.reaches_iff (inside a ha) rests (rests.eq_of_meet rests' meet ▸ rests')
    exact ⟨fun reached => (same (meets a ha b hb ⟨b, reached, .refl b⟩)).2 reached,
      fun reached => (same ⟨b, reached, .refl b⟩).1 reached⟩

/-- The members of a joined bucket rest on the same member. -/
theorem Bucket.Joined.exists_restsOn {bucket : Bucket} (joined : bucket.Joined lookup)
    (traced : ∀ a ∈ bucket.ids, ∃ base, lookup.RestsOn kept a base) :
    ∃ base, ∀ a ∈ bucket.ids, lookup.RestsOn kept a base := by
  obtain ⟨base, rests⟩ := traced bucket.first.id (List.mem_map_of_mem List.mem_cons_self)
  refine ⟨base, fun a ha => ?_⟩
  obtain ⟨member, hm, rfl⟩ := List.mem_map.1 ha
  exact rests.of_chained (joined member hm) traced

end ClassSymbols
