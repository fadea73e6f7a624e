import ClassSymbols.Overrides.Synthesis
import ClassSymbols.Proofs.Graph.Closure
import ClassSymbols.Proofs.Graph.Forest

/-!
# Clusters are chains of members that meet

Two members meet if both reach a common one. The clusters of a bucket are its positions up to chains
of members that meet, the one of its first member first.

## Main definitions

* `Overlap` — whether the sets at two positions have an id in common.
* `FiniteGraph.Chained` — a chain of members that meet, all but the first of them with a property.
* `Bucket.Joined` — whether chains lead from the first member of a bucket to all of them.

## Main statements

* `closure_exact` — the search from a member ends, and has then visited each member that it
  overrides in any number of steps once.
* `clusters_exact` — the clusters of sets partition their positions by chains of sets that overlap.
* `joins_iff` — chains of links between positions are chains of members that meet.
* `Bucket.joined_iff_clusters` — a bucket has one cluster iff it is joined.
* `Bucket.mem_clashes_iff` — the conflicts of a bucket.
-/

namespace ClassSymbols

namespace FiniteGraph

variable {α : Type} {graph : FiniteGraph α} {members : α → Prop} {a b c : α}

def Meet (graph : FiniteGraph α) (a b : α) : Prop := ∃ c, graph.Reaches a c ∧ graph.Reaches b c

theorem Meet.refl (a : α) : graph.Meet a a := ⟨a, .refl a, .refl a⟩

theorem Meet.symm (h : graph.Meet a b) : graph.Meet b a := by
  obtain ⟨c, hac, hbc⟩ := h
  exact ⟨c, hbc, hac⟩

/-- A chain of nodes each of which meets the one before. All but the first are members. -/
def Chained (graph : FiniteGraph α) (members : α → Prop) : α → α → Prop :=
  Relation.ReflTransGen fun a b => members b ∧ graph.Meet a b

theorem Chained.symm (ha : members a) (h : graph.Chained members a b) :
    graph.Chained members b a := by
  have both : members b ∧ graph.Chained members b a := by
    induction h with
    | refl => exact ⟨ha, .refl⟩
    | tail _ step ih => exact ⟨step.1, .head ⟨ih.1, step.2.symm⟩ ih.2⟩
  exact both.2

end FiniteGraph

/-- No search along overridden members goes on for ever, whatever it has visited and has on its
stack. The one from a member ends with the member and all that it overrides in any number of steps,
each once. -/
theorem closure_exact (lookup : OverriddenLookup) (member : DeclId) :
    (∀ searches : Nat → GraphSearch DeclId, ¬∀ n, lookup.Turn (searches n) (searches (n + 1))) ∧
    Relation.ReflTransGen lookup.Turn ⟨[], [member]⟩ ⟨lookup.closure member, []⟩ ∧
    (lookup.closure member).Nodup ∧
    ∀ id, id ∈ lookup.closure member ↔
      Relation.ReflTransGen (fun a b => b ∈ lookup.successors a) member id := by
  refine ⟨lookup.not_forall_turn, lookup.turns_search ⟨[], [member]⟩,
    (lookup.explores_closure member).nodup,
    fun id => ?_⟩
  rw [FiniteGraph.mem_closure_iff, FiniteGraph.reaches_iff_reflTransGen]

/-! ## Positions -/

section Positions

variable {lookup : OverriddenLookup} {ids : List DeclId} {a b : DeclId} {i j : Nat}

/-- Whether the closures at two positions have a member in common. -/
def linkedAt (closures : List (List DeclId)) (i j : Nat) : Bool :=
  match closures[i]?, closures[j]? with
  | some a, some b => intersects a b
  | _, _ => false

theorem intersects_eq_true_iff {a b : List DeclId} : intersects a b = true ↔ ∃ id ∈ a, id ∈ b := by
  simp [intersects]

theorem linkedAt_comm {closures : List (List DeclId)} (i j : Nat) :
    linkedAt closures i j = linkedAt closures j i := by
  unfold linkedAt
  cases closures[i]? <;> cases closures[j]? <;> try rfl
  rw [Bool.eq_iff_iff, intersects_eq_true_iff, intersects_eq_true_iff]
  simp only [and_comm]

/-- Clusters are connected components. -/
theorem clusters_eq (closures : List (List DeclId)) :
    clusters closures = components closures.length (linkedAt closures) :=
  Forest.trees_ofLinks linkedAt_comm

def Overlap (sets : List (List DeclId)) (i j : Nat) : Prop :=
  ∃ a b id, sets[i]? = some a ∧ sets[j]? = some b ∧ id ∈ a ∧ id ∈ b

theorem linkedAt_iff_overlap {sets : List (List DeclId)} :
    linkedAt sets i j = true ↔ Overlap sets i j := by
  unfold linkedAt Overlap
  cases sets[i]? <;> cases sets[j]? <;> simp [intersects_eq_true_iff]

theorem connected_iff_overlap {sets : List (List DeclId)} :
    Connected sets.length (linkedAt sets) i j ↔ Relation.ReflTransGen (Overlap sets) i j := by
  constructor
  · exact Relation.ReflTransGen.mono (fun _ _ step => linkedAt_iff_overlap.1 step.1) _ _
  · refine Relation.ReflTransGen.mono (fun i j overlap => ⟨linkedAt_iff_overlap.2 overlap, ?_⟩) _ _
    obtain ⟨_, _, _, -, hj, -⟩ := overlap
    exact (List.getElem?_eq_some_iff.1 hj).1

/-- The clusters of some sets partition their positions, and two positions share a cluster iff a
chain of sets leads from one to the other in which each set overlaps the one before. Positions
ascend in a cluster, and the clusters ascend by their first positions, which are their least ones.
No search for a root goes on for ever, in whatever forest: each one ends at a number that is its own
parent. -/
theorem clusters_exact (sets : List (List DeclId)) :
    (clusters sets).flatten.Perm (List.range sets.length) ∧
    (∀ i < sets.length, ∀ j < sets.length,
      (∃ cluster ∈ clusters sets, i ∈ cluster ∧ j ∈ cluster) ↔
      Relation.ReflTransGen (Overlap sets) i j) ∧
    (∀ cluster ∈ clusters sets, cluster ≠ [] ∧ cluster.Pairwise (· < ·)) ∧
    ((clusters sets).filterMap List.head?).Pairwise (· < ·) ∧
    (∀ climbs : Nat → Climb, ¬∀ n, (climbs n).Turn (climbs (n + 1))) ∧
    ∀ climb : Climb, Relation.ReflTransGen Climb.Turn climb climb.top ∧
      climb.top.forest.parent climb.top.index = climb.top.index := by
  rw [clusters_eq]
  refine ⟨flatten_components_perm linkedAt_comm, fun i hi j hj => ?_, fun cluster listed => ?_,
    heads_components linkedAt_comm, Climb.not_forall_turn, fun climb => ?_⟩
  · rw [exists_mem_components_iff linkedAt_comm hi, connected_iff_overlap]
  · obtain ⟨i, hi, -, rfl⟩ := mem_components_iff.1 listed
    exact ⟨List.ne_nil_of_mem ((mem_componentOf_iff hi).2 .refl), pairwise_componentOf⟩
  · exact ⟨climb.turns_top.1, Climb.turn_eq_none_iff.1 climb.turns_top.2⟩

theorem intersects_closure_iff :
    intersects (lookup.closure a) (lookup.closure b) = true ↔ lookup.Meet a b := by
  simp [intersects_eq_true_iff, FiniteGraph.Meet]

theorem linkedAt_closures_iff : linkedAt (ids.map lookup.closure) i j = true ↔
    ∃ a b, ids[i]? = some a ∧ ids[j]? = some b ∧ lookup.Meet a b := by
  unfold linkedAt
  rw [List.getElem?_map, List.getElem?_map]
  cases ids[i]? <;> cases ids[j]? <;> simp [intersects_closure_iff]

/-- Whether a chain of links between positions of a list of members leads from `i` to `j`. -/
abbrev Joins (lookup : OverriddenLookup) (ids : List DeclId) : Nat → Nat → Prop :=
  Connected ids.length (linkedAt (ids.map lookup.closure))

/-- Chains of links between positions are chains of members that meet. -/
theorem joins_iff (ha : ids[i]? = some a) (hb : ids[j]? = some b) :
    Joins lookup ids i j ↔ lookup.Chained (· ∈ ids) a b := by
  constructor
  · intro chain
    induction chain generalizing b with
    | refl => exact Option.some.inj (ha.symm.trans hb) ▸ .refl
    | tail _ step ih =>
      obtain ⟨c, d, hc, hd, meet⟩ := linkedAt_closures_iff.1 step.1
      obtain rfl := Option.some.inj (hd.symm.trans hb)
      exact (ih hc).tail ⟨List.mem_of_getElem? hb, meet⟩
  · intro chain
    have bound {k : Nat} {c : DeclId} (hc : ids[k]? = some c) :
        k < ids.length := (List.getElem?_eq_some_iff.1 hc).1
    have link {k l : Nat} {c d : DeclId} (hc : ids[k]? = some c) (hd : ids[l]? = some d)
        (meet : lookup.Meet c d) (joined : Joins lookup ids i k) : Joins lookup ids i l :=
      joined.tail ⟨linkedAt_closures_iff.2 ⟨c, d, hc, hd, meet⟩, bound hd⟩
    induction chain generalizing j with
    | refl => exact link ha hb (.refl a) .refl
    | @tail c d chain step ih =>
      obtain ⟨k, hk⟩ : ∃ k, ids[k]? = some c := by
        cases chain with
        | refl => exact ⟨i, ha⟩
        | tail _ last => exact List.mem_iff_getElem?.1 last.1
      exact link hk hb step.2 (ih hk)

end Positions

/-! ## Buckets -/

namespace Bucket

variable (lookup : OverriddenLookup) (bucket : Bucket)

def ids : List DeclId := bucket.members.map (·.id)

/-- Whether chains of members that meet lead from the first member of a bucket to all of them. -/
def Joined : Prop :=
  ∀ member ∈ bucket.members, lookup.Chained (· ∈ bucket.ids) bucket.first.id member.id

/-- The positions after the first one that no smaller position is joined with. -/
def Heads (i : Nat) : Prop :=
  0 < i ∧ i < bucket.ids.length ∧
    IsLeast bucket.ids.length (linkedAt (bucket.ids.map lookup.closure)) i

theorem closures_eq : (bucket.members.map fun member => lookup.closure member.id) =
    bucket.ids.map lookup.closure := by
  rw [ids, List.map_map]
  rfl

theorem length_ids : bucket.ids.length = bucket.others.length + 1 := by
  simp [ids, members]

open Classical in
/-- The clusters of a bucket are that of its first member and those of its further heads. -/
theorem clusters_eq_cons : ∃ first, clusters (bucket.ids.map lookup.closure) = first ::
    ((List.range bucket.ids.length).filter (bucket.Heads lookup)).map
      (componentOf bucket.ids.length (linkedAt (bucket.ids.map lookup.closure))) := by
  rw [clusters_eq, components, List.length_map]
  unfold Heads
  generalize linkedAt (bucket.ids.map lookup.closure) = linked
  generalize hn : bucket.ids.length = n
  obtain ⟨m, rfl⟩ : ∃ m, n = m + 1 := ⟨_, hn.symm.trans bucket.length_ids⟩
  have zero : IsLeast (m + 1) linked 0 := fun _ h => by omega
  refine ⟨componentOf (m + 1) linked 0, ?_⟩
  rw [List.range_succ_eq_map, List.filter_cons, List.filter_cons, if_pos (by simpa using zero),
    if_neg (by simp), List.map_cons]
  congr 2
  refine List.filter_congr fun i hi => ?_
  obtain ⟨j, hj, rfl⟩ := List.mem_map.1 hi
  simp [List.mem_range.1 hj]

variable {lookup bucket}

theorem getElem?_ids {i : Nat} {member : Inherited} (h : bucket.members[i]? = some member) :
    bucket.ids[i]? = some member.id := by
  simp [ids, h]

theorem Heads.getElem? {i : Nat} (h : bucket.Heads lookup i) :
    ∃ head, bucket.members[i]? = some head := by
  have below : i < bucket.members.length := by simpa [ids] using h.2.1
  exact ⟨_, List.getElem?_eq_getElem below⟩

/-- Every member of a bucket is chained to its first member or to that of another head. -/
theorem chained_or_exists_head {member : Inherited} (h : member ∈ bucket.members) :
    lookup.Chained (· ∈ bucket.ids) bucket.first.id member.id ∨
      ∃ i head, bucket.Heads lookup i ∧ bucket.members[i]? = some head ∧
        lookup.Chained (· ∈ bucket.ids) head.id member.id := by
  obtain ⟨k, hk⟩ := List.mem_iff_getElem?.1 h
  have bound := (List.getElem?_eq_some_iff.1 hk).1
  have below : k < bucket.ids.length := by simpa [ids] using bound
  obtain ⟨i, hi, least, joins⟩ :
      ∃ i ≤ k, IsLeast bucket.ids.length _ i ∧ Joins lookup bucket.ids i k :=
    exists_isLeast below
  obtain ⟨head, hh⟩ : ∃ head, bucket.members[i]? = some head :=
    ⟨_, List.getElem?_eq_getElem (show i < bucket.members.length by omega)⟩
  have chained := (joins_iff (getElem?_ids hh) (getElem?_ids hk)).1 joins
  rcases Nat.eq_zero_or_pos i with rfl | positive
  · obtain rfl : bucket.first = head := Option.some.inj hh
    exact .inl chained
  · exact .inr ⟨i, head, ⟨positive, by simp [ids]; omega, least⟩, hh, chained⟩

theorem not_chained_of_heads {i : Nat} {head : Inherited} (h : bucket.Heads lookup i)
    (hh : bucket.members[i]? = some head) :
    ¬lookup.Chained (· ∈ bucket.ids) bucket.first.id head.id := by
  intro chained
  have zero : bucket.members[0]? = some bucket.first := rfl
  exact h.2.2 0 h.1 ((joins_iff (getElem?_ids zero) (getElem?_ids hh)).2 chained)

theorem joined_iff : bucket.Joined lookup ↔ ∀ i, ¬bucket.Heads lookup i := by
  constructor
  · intro joined i heads
    obtain ⟨head, hh⟩ := heads.getElem?
    exact not_chained_of_heads heads hh (joined _ (List.mem_of_getElem? hh))
  · intro none member hm
    rcases chained_or_exists_head hm with chained | ⟨i, _, heads, -⟩
    · exact chained
    · exact absurd heads (none i)

/-- Several clusters are reported as conflicts of the first member with the first members of the
further clusters. -/
theorem mem_clashes_iff {name : String} {conflict : Conflict} {first : List Nat}
    {others : List (List Nat)}
    (h : clusters (bucket.ids.map lookup.closure) = first :: others) :
    conflict ∈ SynthesisInput.clashes name bucket others ↔
      ∃ i head, bucket.Heads lookup i ∧ bucket.members[i]? = some head ∧
        conflict = ⟨name, bucket.first.id, head.id, .inheritedClash⟩ := by
  classical
  obtain ⟨_, eq⟩ := bucket.clusters_eq_cons lookup
  obtain ⟨-, rfl⟩ := List.cons.inj (h.symm.trans eq)
  have start {i : Nat} (hi : bucket.Heads lookup i) : (componentOf bucket.ids.length
      (linkedAt (bucket.ids.map lookup.closure)) i).head? = some i :=
    head?_componentOf linkedAt_comm hi.2.1 hi.2.2
  simp only [SynthesisInput.clashes, List.mem_filterMap, List.mem_map, List.mem_filter,
    List.mem_range, decide_eq_true_eq, Option.map_eq_some_iff, Option.bind_eq_some_iff]
  constructor
  · rintro ⟨_, ⟨i, ⟨-, hi⟩, rfl⟩, head, ⟨j, hj, hh⟩, rfl⟩
    obtain rfl := Option.some.inj ((start hi).symm.trans hj)
    exact ⟨i, head, hi, hh, rfl⟩
  · rintro ⟨i, head, hi, hh, rfl⟩
    exact ⟨_, ⟨i, ⟨hi.2.1, hi⟩, rfl⟩, head, ⟨i, start hi, hh⟩, rfl⟩

/-- A bucket has a second cluster unless it is joined. -/
theorem joined_iff_clusters : bucket.Joined lookup ↔
    ∃ first, clusters (bucket.ids.map lookup.closure) = [first] := by
  classical
  obtain ⟨first, eq⟩ := bucket.clusters_eq_cons lookup
  rw [eq, joined_iff]
  simp only [List.cons.injEq, List.map_eq_nil_iff, List.filter_eq_nil_iff, List.mem_range,
    decide_eq_true_eq, exists_and_right, exists_eq', true_and]
  exact ⟨fun none i _ => none i, fun none i hi => none i hi.2.1 hi⟩

end Bucket

end ClassSymbols
