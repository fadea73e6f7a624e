import ClassSymbols.Proofs.Data.Traversal
import ClassSymbols.Proofs.Overrides.Clusters

/-!
# First members of components

Chains of members that meet divide a bucket into components. The conflicts of a bucket name its
first member and the first member of each other component.

## Main definitions

* `Bucket.component` — the members of a bucket that chains lead to.
* `Bucket.heads` — the first members of the components, other than the first member of the bucket.

## Main statements

* `Bucket.clashes_eq` — the conflicts of a bucket, in their order.
* `Bucket.joined_iff_heads` — a bucket is joined iff it has no further component.
* `Bucket.existsUnique_head` — each further component has one first member.
-/

namespace ClassSymbols

namespace Bucket

variable {lookup : OverriddenLookup} {bucket : Bucket}

open Classical in
/-- The members of a bucket that chains lead to from one of them, in their order. -/
noncomputable def component (bucket : Bucket) (lookup : OverriddenLookup) (member : Inherited) :
    List Inherited :=
  bucket.members.filter fun other => lookup.Chained (· ∈ bucket.ids) member.id other.id

open Classical in
/-- The members of a bucket that are the first ones of their components, other than its first
member. -/
noncomputable def heads (bucket : Bucket) (lookup : OverriddenLookup) : List Inherited :=
  bucket.others.filter fun member => (bucket.component lookup member).head? = some member

theorem mem_ids {member : Inherited} (h : member ∈ bucket.members) : member.id ∈ bucket.ids :=
  List.mem_map_of_mem h

theorem head?_component_iff (nodup : bucket.ids.Nodup) {i : Nat} {member : Inherited}
    (hi : bucket.members[i]? = some member) :
    (bucket.component lookup member).head? = some member ↔
      IsLeast bucket.ids.length (linkedAt (bucket.ids.map lookup.closure)) i := by
  have at_i := getElem?_ids hi
  rw [component, List.head?_filter, List.find?_eq_some_iff_getElem]
  constructor
  · rintro ⟨-, k, hk, found, earlier⟩ j below chain
    -- No member is listed twice, so the member that is found is the one at `i`.
    have at_k : bucket.members[k]? = some member := by rw [List.getElem?_eq_getElem hk, found]
    obtain rfl : k = i :=
      (List.getElem?_inj (List.getElem?_eq_some_iff.1 (getElem?_ids at_k)).1 nodup).1
        ((getElem?_ids at_k).trans at_i.symm)
    have at_j := List.getElem?_eq_getElem (Nat.lt_trans below hk)
    have chained := (joins_iff (getElem?_ids at_j) at_i).1 chain
    simpa [chained.symm (mem_ids (List.getElem_mem _))] using earlier j below
  · intro least
    obtain ⟨hk, found⟩ := List.getElem?_eq_some_iff.1 hi
    refine ⟨by simpa using .refl, i, hk, found, fun j below => ?_⟩
    have at_j := List.getElem?_eq_getElem (Nat.lt_trans below hk)
    have unjoined := (joins_iff (getElem?_ids at_j) at_i).not.1 (least j below)
    have unchained : ¬lookup.Chained (· ∈ bucket.ids) member.id (bucket.members[j]).id :=
      fun chained => unjoined (chained.symm (mem_ids (List.mem_of_getElem? hi)))
    simpa using unchained

open Classical in
/-- The first members of the further components stand at the positions that start them. -/
theorem heads_eq (nodup : bucket.ids.Nodup) :
    ((List.range bucket.ids.length).filter (bucket.Heads lookup)).filterMap (bucket.members[·]?) =
      bucket.heads lookup := by
  have length : bucket.ids.length = bucket.others.length + 1 := bucket.length_ids
  have shifted :
      ((List.range bucket.ids.length).filter (bucket.Heads lookup)).filterMap (bucket.members[·]?) =
        ((List.range bucket.others.length).filter fun i =>
          decide (bucket.Heads lookup (i + 1))).filterMap
          (bucket.others[·]?) := by
    rw [length, List.range_succ_eq_map, List.filter_cons, if_neg (by simp [Heads]), List.filter_map,
      List.filterMap_map]
    rfl
  rw [shifted, heads]
  refine filterMap_getElem?_filter_range _ fun i member hi => ?_
  have at_i : bucket.members[i + 1]? = some member := hi
  have below : i + 1 < bucket.ids.length := (List.getElem?_eq_some_iff.1 (getElem?_ids at_i)).1
  rw [Bool.eq_iff_iff, decide_eq_true_eq, decide_eq_true_eq, head?_component_iff nodup at_i]
  simp [Heads, below]

theorem clashes_eq {name : String} {first : List Nat} {others : List (List Nat)}
    (nodup : bucket.ids.Nodup) (h : clusters (bucket.ids.map lookup.closure) = first :: others) :
    SynthesisInput.clashes name bucket others =
      (bucket.heads lookup).map fun second =>
        ⟨name, bucket.first.id, second.id, .inheritedClash⟩ := by
  classical
  obtain ⟨_, eq⟩ := bucket.clusters_eq_cons lookup
  obtain ⟨-, rfl⟩ := List.cons.inj (h.symm.trans eq)
  rw [SynthesisInput.clashes, List.filterMap_map, ← heads_eq nodup, List.map_filterMap]
  refine List.filterMap_congr fun i hi => ?_
  have heads : bucket.Heads lookup i := by simpa using (List.mem_filter.1 hi).2
  have start : (componentOf bucket.ids.length (linkedAt (bucket.ids.map lookup.closure)) i).head? =
    some i :=
    head?_componentOf linkedAt_comm heads.2.1 heads.2.2
  simp [start]

theorem joined_iff_heads (nodup : bucket.ids.Nodup) :
    bucket.Joined lookup ↔ bucket.heads lookup = [] := by
  classical
  rw [joined_iff, ← heads_eq nodup, List.filterMap_eq_nil_iff]
  constructor
  · intro none i hi
    exact absurd (of_decide_eq_true (List.mem_filter.1 hi).2) (none i)
  · intro none i heads
    obtain ⟨head, hh⟩ := heads.getElem?
    have listed : i ∈ (List.range bucket.ids.length).filter (bucket.Heads lookup) :=
      List.mem_filter.2 ⟨List.mem_range.2 heads.2.1, decide_eq_true heads⟩
    simp [none i listed] at hh

/-! ## Components -/

theorem joined_iff_connected : bucket.Joined lookup ↔
    ∀ x ∈ bucket.ids, ∀ y ∈ bucket.ids, lookup.Chained (· ∈ bucket.ids) x y := by
  have first : bucket.first.id ∈ bucket.ids := mem_ids List.mem_cons_self
  constructor
  · intro joined x hx y hy
    obtain ⟨a, ha, rfl⟩ := List.mem_map.1 hx
    obtain ⟨b, hb, rfl⟩ := List.mem_map.1 hy
    exact ((joined a ha).symm first).trans (joined b hb)
  · intro connected member hm
    exact connected _ first _ (mem_ids hm)

theorem mem_heads_iff {head : Inherited} : head ∈ bucket.heads lookup ↔
    head ∈ bucket.others ∧ (bucket.component lookup head).head? = some head := by
  classical
  rw [heads, List.mem_filter, decide_eq_true_eq]

/-- Members that a chain connects have one component. -/
theorem component_eq {a b : Inherited} (ha : a ∈ bucket.members)
    (chained : lookup.Chained (· ∈ bucket.ids) a.id b.id) :
    bucket.component lookup a = bucket.component lookup b := by
  classical
  refine List.filter_congr fun member _ => ?_
  rw [decide_eq_decide]
  exact ⟨(chained.symm (mem_ids ha)).trans, chained.trans⟩

/-- A member that is not connected with the first member of its bucket is connected with one further
head. -/
theorem existsUnique_head {member : Inherited} (hm : member ∈ bucket.members)
    (apart : ¬lookup.Chained (· ∈ bucket.ids) bucket.first.id member.id) :
    ∃! head, head ∈ bucket.heads lookup ∧ lookup.Chained (· ∈ bucket.ids) head.id member.id := by
  classical
  have own : member ∈ bucket.component lookup member :=
    List.mem_filter.2 ⟨hm, decide_eq_true (show lookup.Chained _ _ _ from .refl)⟩
  obtain ⟨head, hh⟩ : ∃ head, (bucket.component lookup member).head? = some head :=
    Option.isSome_iff_exists.1 (List.isSome_head?.2 (List.ne_nil_of_mem own))
  obtain ⟨listed, chained⟩ := List.mem_filter.1 (List.mem_of_head? hh)
  have back := (of_decide_eq_true chained : lookup.Chained _ _ _).symm (mem_ids hm)
  have later : head ∈ bucket.others := by
    rcases List.mem_cons.1 listed with rfl | later
    · exact absurd back apart
    · exact later
  refine ⟨head, ⟨mem_heads_iff.2 ⟨later, ?_⟩, back⟩, ?_⟩
  · rw [component_eq listed back]
    exact hh
  · rintro other ⟨ho, chained'⟩
    obtain ⟨listed', starts⟩ := mem_heads_iff.1 ho
    rw [component_eq (List.mem_cons_of_mem _ listed') chained', hh] at starts
    exact (Option.some.inj starts).symm

theorem head?_component_first :
    (bucket.component lookup bucket.first).head? = some bucket.first := by
  have self : lookup.Chained (· ∈ bucket.ids) bucket.first.id bucket.first.id := .refl
  simp [component, members, self]

/-- The first member of a bucket does not meet a further head. -/
theorem not_meet_of_mem_heads (nodup : bucket.ids.Nodup) {head : Inherited}
    (h : head ∈ bucket.heads lookup) :
    ¬lookup.Meet bucket.first.id head.id := by
  intro meet
  obtain ⟨later, starts⟩ := mem_heads_iff.1 h
  have listed : head ∈ bucket.members := List.mem_cons_of_mem _ later
  have chained : lookup.Chained (· ∈ bucket.ids) bucket.first.id head.id :=
    .single ⟨mem_ids listed, meet⟩
  rw [← component_eq List.mem_cons_self chained, head?_component_first] at starts
  obtain rfl := Option.some.inj starts
  exact (List.nodup_cons.1 nodup).1 (List.mem_map_of_mem later)

end Bucket

end ClassSymbols
