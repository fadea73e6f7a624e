import ClassSymbols.Data.Forest
import ClassSymbols.Proofs.Data.Grouping
import ClassSymbols.Proofs.Graph.Components
import Mathlib.Order.WellFounded

/-!
# Trees are connected components

Path halving changes parents but no root, and a join merges two trees below the smaller root. So
after any number of links two numbers have the same root iff the links connect them, and the root of
a number is the least one that it is connected with.

## Main definitions

* `Forest.root` — the root of a number, in a forest that is only read.
* `Climb.Turn` — one turn of the search for a root.
* `Forest.Tracks` — what a forest says of the links that have been looked at.

## Main statements

* `Climb.turns_top`, `Climb.index_top` — every search for a root ends, at the root.
* `Climb.keeps_top` — a search for a root changes no root.
* `Forest.root_join` — a join merges two trees below the smaller root.
* `Forest.trees_ofLinks` — the trees are the connected components.
-/

namespace ClassSymbols

/-! ## Roots -/

namespace Forest

variable {forest : Forest} {i j k : Nat}

def root (forest : Forest) (i : Nat) : Nat :=
  if forest.parent i = i then i else forest.root (forest.parent i)
termination_by i
decreasing_by exact Nat.lt_of_le_of_ne (forest.parent_le i) ‹_›

theorem root_of_parent_eq (h : forest.parent i = i) : forest.root i = i := by
  rw [root, if_pos h]

@[simp] theorem root_parent (forest : Forest) (i : Nat) :
    forest.root (forest.parent i) = forest.root i := by
  by_cases h : forest.parent i = i
  · rw [h]
  · rw [root.eq_1 forest i, if_neg h]

/-- Roots are determined by what holds of a number and its parent. -/
theorem root_eq_of_local {ρ : Nat → Nat} (fixed : ∀ i, forest.parent i = i → ρ i = i)
    (climbs : ∀ i, ρ (forest.parent i) = ρ i) (i : Nat) : forest.root i = ρ i := by
  induction i using Forest.root.induct forest with
  | case1 i h => rw [root_of_parent_eq h, fixed i h]
  | case2 i h ih => rw [← root_parent, ih, climbs]

theorem root_le (forest : Forest) (i : Nat) : forest.root i ≤ i := by
  induction i using Forest.root.induct forest with
  | case1 i h => rw [root_of_parent_eq h]
  | case2 i h ih => exact root_parent forest i ▸ ih.trans (forest.parent_le i)

@[simp] theorem parent_root (forest : Forest) (i : Nat) :
    forest.parent (forest.root i) = forest.root i := by
  induction i using Forest.root.induct forest with
  | case1 i h => rw [root_of_parent_eq h, h]
  | case2 i h ih => rwa [root_parent] at ih

@[simp] theorem root_root (forest : Forest) (i : Nat) :
    forest.root (forest.root i) = forest.root i :=
  root_of_parent_eq (forest.parent_root i)

@[simp] theorem length_link (forest : Forest) (le : j ≤ i) :
    (forest.link i j le).parents.length = forest.parents.length := List.length_set

/-- A grandparent that becomes the parent leaves all roots as they are. -/
theorem root_halve (inner : forest.parent i ≠ i) (k : Nat) :
    (forest.halve i).root k = forest.root k := by
  have below := forest.lt_length_of_parent_ne inner
  refine root_eq_of_local (fun k hk => ?_) (fun k => ?_) k
  · have lower := forest.parent_halve_lt inner
    by_cases own : i = k
    · subst own
      omega
    · rw [halve, parent_link _ _ below, if_neg own] at hk
      exact root_of_parent_eq hk
  · rw [halve, parent_link _ _ below]
    split
    · next own => simp [← own]
    · exact forest.root_parent k

@[simp] theorem length_halve (forest : Forest) (i : Nat) :
    (forest.halve i).parents.length = forest.parents.length := forest.length_link _

/-- A root that gets another root as its parent brings its tree along. -/
theorem root_link (le : j ≤ i) (hi : i < forest.parents.length) (rootI : forest.parent i = i)
    (rootJ : forest.parent j = j) (k : Nat) :
    (forest.link i j le).root k = if forest.root k = i then j else forest.root k := by
  have ofJ := root_of_parent_eq rootJ
  refine root_eq_of_local (ρ := fun k => if forest.root k = i then j else forest.root k)
    (fun k hk => ?_) (fun k => ?_) k
  · rw [parent_link _ _ hi] at hk
    have ofI := root_of_parent_eq rootI
    split at hk
    · next own => simp [← own, ofI, hk.trans own.symm]
    · next other => simp [root_of_parent_eq hk, Ne.symm other]
  · rw [parent_link _ _ hi]
    split
    · next own => simp [← own, ofJ, root_of_parent_eq rootI]
    · simp only [root_parent]

end Forest

/-! ## Searches for a root -/

namespace Climb

def Turn (climb further : Climb) : Prop := climb.turn = some further

/-- No search for a root goes on for ever, in any forest and from any number. -/
theorem not_forall_turn (climbs : Nat → Climb) : ¬∀ n, Turn (climbs n) (climbs (n + 1)) := by
  intro endless
  obtain ⟨n, still⟩ := WellFounded.not_rel_apply_succ (r := (· < ·)) fun n => (climbs n).index
  exact still (index_lt_of_turn (endless n))

theorem turn_eq_none_iff {climb : Climb} :
    climb.turn = none ↔ climb.forest.parent climb.index = climb.index := by
  simp [turn]

theorem turn_eq_some_iff {climb further : Climb} :
    climb.turn = some further ↔ climb.forest.parent climb.index ≠ climb.index ∧
      further =
        ⟨climb.forest.halve climb.index, (climb.forest.halve climb.index).parent climb.index⟩ := by
  unfold turn
  split
  · next atRoot => simp [atRoot]
  · next inner =>
    exact ⟨fun h => ⟨inner, (Option.some.inj h).symm⟩, fun h => congrArg some h.2.symm⟩

theorem top_of_turn_eq_none {climb : Climb} (last : climb.turn = none) : climb.top = climb := by
  rw [top]
  split
  · rfl
  · simp_all

theorem top_of_turn {climb further : Climb} (turn : Turn climb further) :
    climb.top = further.top := by
  rw [top]
  split
  · simp_all [Turn]
  · simp_all [Turn]

/-- Turns lead from a search for a root to its end, where no turn is left. -/
theorem turns_top (climb : Climb) :
    Relation.ReflTransGen Turn climb climb.top ∧ climb.top.turn = none := by
  induction climb using top.induct with
  | case1 climb last => exact ⟨by rw [top_of_turn_eq_none last], by rwa [top_of_turn_eq_none last]⟩
  | case2 climb further turn ih =>
    rw [top_of_turn turn]
    exact ⟨.head turn ih.1, ih.2⟩

/-- What a turn keeps: all roots, the number of numbers, and the root that it looks for. -/
structure Keeps (climb later : Climb) : Prop where
  root : ∀ i, later.forest.root i = climb.forest.root i
  length : later.forest.parents.length = climb.forest.parents.length
  target : climb.forest.root later.index = climb.forest.root climb.index

theorem Turn.keeps {climb further : Climb} (turn : Turn climb further) : Keeps climb further := by
  obtain ⟨inner, rfl⟩ := turn_eq_some_iff.1 turn
  refine ⟨Forest.root_halve inner, Forest.length_halve .., ?_⟩
  rw [← Forest.root_halve inner, Forest.root_parent, Forest.root_halve inner]

theorem keeps_of_turns {climb later : Climb} (turns : Relation.ReflTransGen Turn climb later) :
    Keeps climb later := by
  induction turns with
  | refl => exact ⟨fun _ => rfl, rfl, rfl⟩
  | tail _ turn ih =>
    have next := turn.keeps
    exact ⟨fun i => (next.root i).trans (ih.root i), next.length.trans ih.length, by
      rw [← ih.target, ← ih.root, next.target, ih.root]⟩

theorem keeps_top (climb : Climb) : Keeps climb climb.top := keeps_of_turns climb.turns_top.1

/-- A search for a root ends at it. -/
theorem index_top (climb : Climb) : climb.top.index = climb.forest.root climb.index := by
  have atRoot := Forest.root_of_parent_eq (turn_eq_none_iff.1 climb.turns_top.2)
  rw [← climb.keeps_top.target, ← climb.keeps_top.root, atRoot]

end Climb

/-! ## Joins -/

namespace Forest

variable {forest : Forest} {n i j k : Nat} {linked : Nat → Nat → Bool}

/-- A join looks for both roots, which changes none, and links the larger one to the smaller one. -/
theorem exists_join_eq (forest : Forest) (i j : Nat) :
    ∃ halved : Forest, (∀ k, halved.root k = forest.root k) ∧
      halved.parents.length = forest.parents.length ∧
      forest.join i j = if forest.root i = forest.root j then halved
        else halved.link (max (forest.root j) (forest.root i)) (min (forest.root i) (forest.root j))
          (by omega) := by
  let first := (Climb.mk forest i).top
  let second := (Climb.mk first.forest j).top
  have keepsFirst : Climb.Keeps _ first := Climb.keeps_top _
  have keepsSecond : Climb.Keeps _ second := Climb.keeps_top _
  have atFirst : first.index = forest.root i := Climb.index_top _
  have atSecond : second.index = forest.root j := (Climb.index_top _).trans (keepsFirst.root j)
  refine ⟨second.forest, fun k => (keepsSecond.root k).trans (keepsFirst.root k),
    keepsSecond.length.trans keepsFirst.length, ?_⟩
  simp only [← atFirst, ← atSecond]
  rfl

@[simp] theorem length_join (forest : Forest) (i j : Nat) :
    (forest.join i j).parents.length = forest.parents.length := by
  obtain ⟨halved, -, length, e⟩ := forest.exists_join_eq i j
  rw [e]
  split <;> simp [length]

/-- A join merges the trees of two numbers below the smaller one of their roots. -/
theorem root_join (hi : i < forest.parents.length) (hj : j < forest.parents.length) (k : Nat) :
    (forest.join i j).root k =
      if forest.root k = forest.root i ∨ forest.root k = forest.root j then
        min (forest.root i) (forest.root j)
      else forest.root k := by
  obtain ⟨halved, roots, length, e⟩ := forest.exists_join_eq i j
  have isRoot (a : Nat) : halved.parent (forest.root a) = forest.root a := by
    rw [← roots]
    exact halved.parent_root a
  have lower := forest.root_le i
  have lower' := forest.root_le j
  rw [e]
  split
  · next same => simp [roots, same]
  · next different =>
    have larger : max (forest.root j) (forest.root i) = forest.root i ∨
        max (forest.root j) (forest.root i) = forest.root j := by omega
    have smaller : min (forest.root i) (forest.root j) = forest.root i ∨
        min (forest.root i) (forest.root j) = forest.root j := by omega
    rw [root_link _ (by omega) (by rcases larger with h | h <;> rw [h, isRoot])
      (by rcases smaller with h | h <;> rw [h, isRoot]), roots]
    grind

/-- What a forest says of links that have been looked at: its trees are connected, and these links
stay within its trees. -/
structure Tracks (n : Nat) (linked : Nat → Nat → Bool) (seen : List (Nat × Nat)) (forest : Forest) :
    Prop where
  length : forest.parents.length = n
  connected : ∀ i < n, Connected n linked (forest.root i) i
  merged : ∀ pair ∈ seen, linked pair.1 pair.2 = true → forest.root pair.1 = forest.root pair.2

theorem root_discrete (n i : Nat) : (discrete n).root i = i := by
  refine root_of_parent_eq ?_
  simp only [parent, discrete]
  grind

theorem Tracks.discrete : Tracks n linked [] (discrete n) where
  length := List.length_range
  connected i _ := by rw [root_discrete]; exact .refl
  merged := by simp

/-- Looking at one more link keeps track of the links. -/
theorem Tracks.joinLinked {seen : List (Nat × Nat)} (symmetric : ∀ i j, linked i j = linked j i)
    (h : Tracks n linked seen forest) (hi : i < n) (hj : j < n) :
    Tracks n linked (seen ++ [(i, j)]) (forest.joinLinked linked (i, j)) := by
  obtain ⟨length, connected, merged⟩ := h
  unfold Forest.joinLinked
  by_cases link : linked i j = true
  · rw [if_pos link]
    have roots := root_join (length ▸ hi) (length ▸ hj)
    have below (k : Nat) (hk : k < n) : forest.root k < n := (forest.root_le k).trans_lt hk
    have there : Connected n linked (forest.root i) (forest.root j) :=
      ((connected i hi).tail ⟨link, hj⟩).trans ((connected j hj).symm symmetric (below j hj))
    have back := there.symm symmetric (below i hi)
    have between {a b : Nat} (ha : a = forest.root i ∨ a = forest.root j)
        (hb : b = forest.root i ∨ b = forest.root j) : Connected n linked a b := by
      rcases ha with rfl | rfl <;> rcases hb with rfl | rfl <;> first | exact .refl | assumption
    refine ⟨by simp [length], fun k hk => ?_, fun pair hp lk => ?_⟩
    · have own := connected k hk
      rw [roots]
      split
      · next merges => exact (between (by omega) merges).trans own
      · exact own
    · rw [roots, roots]
      rcases List.mem_append.1 hp with old | new
      · rw [merged pair old lk]
      · obtain rfl := List.mem_singleton.1 new
        simp
  · rw [if_neg link]
    refine ⟨length, connected, fun pair hp lk => ?_⟩
    rcases List.mem_append.1 hp with old | new
    · exact merged pair old lk
    · obtain rfl := List.mem_singleton.1 new
      exact absurd lk link

theorem mem_pairs_iff : (i, j) ∈ pairs n ↔ i < j ∧ j < n := by
  simp only [pairs, List.mem_flatMap, List.mem_range, List.mem_map, List.mem_range'_1,
    Prod.mk.injEq]
  constructor
  · rintro ⟨i, hi, j, hj, rfl, rfl⟩
    omega
  · rintro ⟨hij, hj⟩
    exact ⟨i, by omega, j, by omega, rfl, rfl⟩

/-- In the end all links have been looked at. -/
theorem tracks_ofLinks (symmetric : ∀ i j, linked i j = linked j i) :
    Tracks n linked (pairs n) (ofLinks n linked) := by
  suffices found : ∀ seen : List (Nat × Nat), (∀ pair ∈ seen, pair ∈ pairs n) →
      Tracks n linked seen (seen.foldl (joinLinked linked) (Forest.discrete n)) from
    found (pairs n) fun _ h => h
  intro seen known
  induction seen using List.reverseRecOn with
  | nil => exact .discrete
  | append_singleton seen pair ih =>
    obtain ⟨lower, upper⟩ := mem_pairs_iff.1 (known pair (by simp))
    have before := ih fun pair hp => known pair (List.mem_append_left _ hp)
    rw [List.foldl_append]
    exact before.joinLinked symmetric (lower.trans upper) upper

/-- Two numbers have the same root iff links connect them. -/
theorem root_ofLinks_eq_iff (symmetric : ∀ i j, linked i j = linked j i) (hi : i < n) (hj : j < n) :
    (ofLinks n linked).root i = (ofLinks n linked).root j ↔ Connected n linked i j := by
  obtain ⟨-, connected, merged⟩ := tracks_ofLinks (n := n) symmetric
  constructor
  · intro same
    have up := (connected i hi).symm symmetric ((root_le _ i).trans_lt hi)
    exact up.trans (same ▸ connected j hj)
  · intro chain
    induction chain with
    | refl => rfl
    | @tail j k chain step ih =>
      have before : j < n := Connected.lt hi chain
      rw [ih before]
      rcases Nat.lt_trichotomy j k with lt | rfl | gt
      · exact merged (j, k) (mem_pairs_iff.2 ⟨lt, step.2⟩) step.1
      · rfl
      · exact (merged (k, j) (mem_pairs_iff.2 ⟨gt, before⟩) ((symmetric k j).trans step.1)).symm

/-! ## Trees -/

/-- Searches for roots on the way do not matter to what is gathered. -/
theorem gathered_eq (numbers : List Nat) (forest : Forest) (groups : OrderedMap Nat (List Nat)) :
    (numbers.foldl gather (forest, groups)).2 = numbers.foldl
      (fun groups i => groups.alter (forest.root i) fun tree => tree.getD [] ++ [i]) groups := by
  have sameRoots : ∀ later : Forest, later.root = forest.root → ∀ groups,
      (numbers.foldl gather (later, groups)).2 = numbers.foldl
        (fun groups i => groups.alter (forest.root i) fun tree => tree.getD [] ++ [i]) groups := by
    induction numbers with
    | nil => exact fun _ _ _ => rfl
    | cons i rest ih =>
      intro later same groups
      rw [List.foldl_cons, List.foldl_cons, gather]
      dsimp only
      rw [Climb.index_top, same]
      exact ih _ ((funext (Climb.keeps_top ⟨later, i⟩).root).trans same) _
  exact sameRoots forest rfl groups

/-- The roots below a bound, in the order in which their trees start. -/
theorem eraseDups_roots (forest : Forest) (n : Nat) :
    ((List.range n).map forest.root).eraseDups = (List.range n).filter fun i =>
      forest.root i = i := by
  induction n with
  | zero => rfl
  | succ n ih =>
    rw [List.range_succ, List.map_append, List.map_singleton, eraseDups_concat, ih,
      List.filter_append]
    have known : forest.root n ∈ (List.range n).map forest.root ↔ forest.root n ≠ n := by
      simp only [List.mem_map, List.mem_range]
      have := forest.root_le n
      constructor
      · rintro ⟨i, hi, same⟩
        have := forest.root_le i
        omega
      · exact fun inner => ⟨forest.root n, by omega, forest.root_root n⟩
    by_cases atRoot : forest.root n = n
    · rw [if_neg fun h => known.1 h atRoot]
      simp [atRoot]
    · rw [if_pos (known.2 atRoot)]
      simp [atRoot]

/-- The trees are the numbers below each root, and start with it. -/
theorem trees_eq (forest : Forest) (n : Nat) :
    forest.trees n = ((List.range n).filter fun i => forest.root i = i).map fun r =>
      (List.range n).filter (forest.root · = r) := by
  have keys := OrderedMap.keys_foldl_alter forest.root
    (fun i tree => tree.getD [] ++ [i]) (List.range n) (.empty : OrderedMap Nat (List Nat))
  have groups := OrderedMap.getD_foldl_alter forest.root (fun i => i) (List.range n) .empty
  rw [trees, gathered_eq, OrderedMap.values_eq_map_keys _ [], keys, eraseDups_roots]
  simp [groups]

/-- The trees of the forest of a symmetric relation are its connected components. -/
theorem trees_ofLinks (symmetric : ∀ i j, linked i j = linked j i) :
    (ofLinks n linked).trees n = components n linked := by
  classical
  have least {i : Nat} (hi : i < n) : (ofLinks n linked).root i = i ↔ IsLeast n linked i := by
    constructor
    · intro atRoot j hj chain
      have same := (root_ofLinks_eq_iff symmetric (hj.trans hi) hi).2 chain
      have := root_le (ofLinks n linked) j
      omega
    · intro least
      by_contra inner
      have below := Nat.lt_of_le_of_ne (root_le _ i) inner
      exact least _ below ((tracks_ofLinks symmetric).connected i hi)
  rw [trees_eq, components, List.filter_congr fun i hi =>
    decide_eq_decide.2 (least (List.mem_range.1 hi))]
  refine List.map_congr_left fun r hr => List.filter_congr fun i hi => decide_eq_decide.2 ?_
  have below : r < n := List.mem_range.1 (List.mem_filter.1 hr).1
  have atRoot : (ofLinks n linked).root r = r :=
    (least below).2 (by simpa using (List.mem_filter.1 hr).2)
  rw [← root_ofLinks_eq_iff symmetric below (List.mem_range.1 hi), atRoot, eq_comm]

end Forest

end ClassSymbols
