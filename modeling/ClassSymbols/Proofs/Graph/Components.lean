import Mathlib.Data.List.Nodup
import Mathlib.Logic.Relation
import Mathlib.Order.Nat

/-!
# Connected components

The components of the numbers below a bound under a relation that links them. Each component has a
least number, and the components are listed in the order of these.

## Main definitions

* `Connected` — whether a chain of links below a bound leads from one number to another.
* `IsLeast` — whether a number is the least one of its component.
* `componentOf` — the numbers that a number is connected with, in ascending order.
* `components` — the components, in the order of their least numbers.

## Main statements

* `exists_isLeast` — each number is connected with a least one.
* `flatten_components_perm` — each number is in one component.
* `exists_mem_components_iff` — two numbers are in one component iff they are connected.
* `heads_components` — the components start with the least numbers, in ascending order.
-/

namespace ClassSymbols

variable {n : Nat} {linked : Nat → Nat → Bool} {i j k : Nat}

def Connected (n : Nat) (linked : Nat → Nat → Bool) : Nat → Nat → Prop :=
  Relation.ReflTransGen fun i j => linked i j = true ∧ j < n

theorem Connected.lt (hi : i < n) (h : Connected n linked i j) : j < n := by
  cases h with
  | refl => exact hi
  | tail _ step => exact step.2

theorem Connected.symm (symmetric : ∀ i j, linked i j = linked j i) (hi : i < n)
    (h : Connected n linked i j) : Connected n linked j i := by
  induction h with
  | refl => exact .refl
  | @tail j k chain step ih => exact .head ⟨symmetric j k ▸ step.1, Connected.lt hi chain⟩ ih

open Classical in
noncomputable def componentOf (n : Nat) (linked : Nat → Nat → Bool) (i : Nat) : List Nat :=
  (List.range n).filter (Connected n linked i ·)

/-- The component of a number holds the numbers that it is connected with. -/
theorem mem_componentOf_iff (hi : i < n) :
    j ∈ componentOf n linked i ↔ Connected n linked i j := by
  simpa [componentOf] using fun connected : Connected n linked i j => connected.lt hi

/-- A component lists its numbers in ascending order. -/
theorem pairwise_componentOf : (componentOf n linked i).Pairwise (· < ·) :=
  List.pairwise_lt_range.filter _

def IsLeast (n : Nat) (linked : Nat → Nat → Bool) (i : Nat) : Prop :=
  ∀ j < i, ¬Connected n linked j i

/-- Every number can be reached from one that no smaller number is connected with. -/
theorem exists_isLeast (hi : i < n) :
    ∃ j ≤ i, IsLeast n linked j ∧ Connected n linked j i := by
  induction i using Nat.strongRecOn with
  | ind i ih =>
    by_cases least : IsLeast n linked i
    · exact ⟨i, le_rfl, least, .refl⟩
    · obtain ⟨j, hj, hji⟩ : ∃ j < i, Connected n linked j i := by
        simpa [IsLeast] using least
      obtain ⟨k, hk, hkl, hkj⟩ := ih j hj (hj.trans hi)
      exact ⟨k, hk.trans hj.le, hkl, hkj.trans hji⟩

open Classical in
noncomputable def components (n : Nat) (linked : Nat → Nat → Bool) : List (List Nat) :=
  ((List.range n).filter fun i => IsLeast n linked i).map (componentOf n linked)

theorem mem_components_iff {component : List Nat} : component ∈ components n linked ↔
    ∃ i < n, IsLeast n linked i ∧ componentOf n linked i = component := by
  simp [components, and_assoc]

section Symmetric

variable (symmetric : ∀ i j, linked i j = linked j i)
include symmetric

/-- Least numbers that are connected are the same. -/
theorem IsLeast.eq (hi : i < n) (leastI : IsLeast n linked i) (leastJ : IsLeast n linked j)
    (connected : Connected n linked i j) : i = j := by
  rcases Nat.lt_trichotomy i j with lt | same | gt
  · exact absurd connected (leastJ i lt)
  · exact same
  · exact absurd (connected.symm symmetric hi) (leastI j gt)

/-- The component of a least number starts with it. -/
theorem head?_componentOf
    (hi : i < n) (least : IsLeast n linked i) :
    (componentOf n linked i).head? = some i := by
  have mem : i ∈ componentOf n linked i := (mem_componentOf_iff hi).2 .refl
  cases found : componentOf n linked i with
  | nil => simp [found] at mem
  | cons j rest =>
    have connected : Connected n linked i j :=
      (mem_componentOf_iff hi).1 (found ▸ List.mem_cons_self)
    have above : i ≤ j := by
      by_contra below
      exact least j (by omega) (connected.symm symmetric hi)
    have sorted := @pairwise_componentOf n linked i
    rw [found, List.pairwise_cons] at sorted
    rcases List.mem_cons.1 (found ▸ mem) with rfl | later
    · rfl
    · have := sorted.1 i later
      omega

/-- The components start with the least numbers, in ascending order. -/
theorem heads_components : ((components n linked).filterMap List.head?).Pairwise (· < ·) := by
  classical
  have heads : (components n linked).filterMap List.head? =
      (List.range n).filter fun i => IsLeast n linked i := by
    rw [components, List.filterMap_map]
    refine (List.filterMap_congr fun i listed => ?_).trans (List.filterMap_some ..)
    obtain ⟨below, least⟩ := List.mem_filter.1 listed
    exact head?_componentOf symmetric (List.mem_range.1 below) (by simpa using least)
  rw [heads]
  exact List.pairwise_lt_range.filter _

/-- Two numbers are in one component iff they are connected. -/
theorem exists_mem_components_iff (hi : i < n) :
    (∃ component ∈ components n linked, i ∈ component ∧ j ∈ component) ↔
      Connected n linked i j := by
  constructor
  · rintro ⟨_, listed, inI, inJ⟩
    obtain ⟨k, hk, -, rfl⟩ := mem_components_iff.1 listed
    rw [mem_componentOf_iff hk] at inI inJ
    exact (inI.symm symmetric hk).trans inJ
  · intro connected
    obtain ⟨k, hk, least, up⟩ : ∃ k ≤ i, IsLeast n linked k ∧ Connected n linked k i :=
      exists_isLeast hi
    have below : k < n := by omega
    exact ⟨_, mem_components_iff.2 ⟨k, below, least, rfl⟩, (mem_componentOf_iff below).2 up,
      (mem_componentOf_iff below).2 (up.trans connected)⟩

/-- Each number is in one component. -/
theorem flatten_components_perm : (components n linked).flatten.Perm (List.range n) := by
  classical
  have apart : (components n linked).Pairwise List.Disjoint := by
    rw [components, List.pairwise_map]
    refine (List.nodup_range.filter _).imp_of_mem fun {i j} listedI listedJ different k inI inJ =>
      different ?_
    simp only [List.mem_filter, List.mem_range, decide_eq_true_eq] at listedI listedJ
    rw [mem_componentOf_iff listedI.1] at inI
    rw [mem_componentOf_iff listedJ.1] at inJ
    exact listedI.2.eq symmetric listedI.1 listedJ.2 (inI.trans (inJ.symm symmetric listedJ.1))
  have nodup : (components n linked).flatten.Nodup := by
    refine List.nodup_flatten.2 ⟨fun component listed => ?_, apart⟩
    obtain ⟨k, -, -, rfl⟩ := mem_components_iff.1 listed
    exact pairwise_componentOf.imp Nat.ne_of_lt
  refine (List.perm_ext_iff_of_nodup nodup List.nodup_range).2 fun i => ?_
  rw [List.mem_flatten, List.mem_range]
  constructor
  · rintro ⟨_, listed, inside⟩
    obtain ⟨k, hk, -, rfl⟩ := mem_components_iff.1 listed
    exact ((mem_componentOf_iff hk).1 inside).lt hk
  · intro hi
    obtain ⟨component, listed, inside, -⟩ := (exists_mem_components_iff symmetric hi).2 .refl
    exact ⟨component, listed, inside⟩

end Symmetric

end ClassSymbols
