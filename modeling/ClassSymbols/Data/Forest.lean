import ClassSymbols.Data.OrderedMap

/-!
# Union–find

A forest on the numbers below a bound, in which each number has a parent that is not larger. The
roots are their own parents, so the root of a tree is its least number. Looking for a root shortens
the way to it.

## Main definitions

* `Forest` — the parents of the numbers.
* `Climb` — a number on its way to its root, and `Climb.turn`, one step with path halving.
* `Forest.join` — puts the trees of two numbers together.
* `Forest.ofLinks` — the forest whose trees are the connected components of a relation.
* `Forest.trees` — the numbers of each tree.
-/

namespace ClassSymbols

/-- The parents of the numbers below the length of a list. A number beyond it is its own parent. -/
structure Forest where
  parents : List Nat
  parent_le : ∀ i, parents.getD i i ≤ i

namespace Forest

def parent (forest : Forest) (i : Nat) : Nat := forest.parents.getD i i

/-- The forest in which each number below `n` is a tree of its own. -/
def discrete (n : Nat) : Forest where
  parents := List.range n
  parent_le i := by grind

def link (forest : Forest) (i j : Nat) (le : j ≤ i) : Forest where
  parents := forest.parents.set i j
  parent_le k := by
    have := forest.parent_le k
    grind

theorem parent_link (forest : Forest) {i j : Nat} (le : j ≤ i) (hi : i < forest.parents.length)
    (k : Nat) :
    (forest.link i j le).parent k = if i = k then j else forest.parent k := by
  simp only [parent, link]
  grind

/-- A number with another parent is below the bound. -/
theorem lt_length_of_parent_ne (forest : Forest) {i : Nat} (h : forest.parent i ≠ i) :
    i < forest.parents.length := by
  simp only [parent] at h
  grind

def halve (forest : Forest) (i : Nat) : Forest :=
  forest.link i (forest.parent (forest.parent i))
    (Nat.le_trans (forest.parent_le _) (forest.parent_le i))

theorem parent_halve_lt (forest : Forest) {i : Nat} (h : forest.parent i ≠ i) :
    (forest.halve i).parent i < i := by
  rw [halve, parent_link _ _ (forest.lt_length_of_parent_ne h), if_pos rfl]
  exact Nat.lt_of_le_of_lt (forest.parent_le _) (Nat.lt_of_le_of_ne (forest.parent_le i) h)

end Forest

/-! ## Roots -/

/-- A number in a forest, on the way to its root. -/
structure Climb where
  forest : Forest
  index : Nat

namespace Climb

/-- Unless the number is a root, makes its grandparent its parent, and goes there. -/
def turn (climb : Climb) : Option Climb :=
  if climb.forest.parent climb.index = climb.index then none
  else
    let halved := climb.forest.halve climb.index
    some ⟨halved, halved.parent climb.index⟩

theorem index_lt_of_turn {climb further : Climb} (h : climb.turn = some further) :
    further.index < climb.index := by
  unfold turn at h
  split at h
  · cases h
  · next inner =>
    obtain rfl := Option.some.inj h
    exact climb.forest.parent_halve_lt inner

/-- The root that a climb ends at, and what it makes of the forest. -/
def top (climb : Climb) : Climb :=
  match _ : climb.turn with
  | none => climb
  | some further => further.top
termination_by climb.index
decreasing_by exact index_lt_of_turn ‹_›

end Climb

/-! ## Trees -/

namespace Forest

/-- Puts the trees of two numbers together, the one with the larger root below the other root. -/
def join (forest : Forest) (i j : Nat) : Forest :=
  let first := (Climb.mk forest i).top
  let second := (Climb.mk first.forest j).top
  if first.index = second.index then second.forest
  else
    second.forest.link (max second.index first.index) (min first.index second.index)
      (Nat.le_trans (Nat.min_le_left _ _) (Nat.le_max_right _ _))

/-- The pairs of different numbers below `n`, the smaller one first, in ascending order. -/
def pairs (n : Nat) : List (Nat × Nat) :=
  (List.range n).flatMap fun i => (List.range' (i + 1) (n - (i + 1))).map (i, ·)

def joinLinked (linked : Nat → Nat → Bool) (forest : Forest) (pair : Nat × Nat) : Forest :=
  if linked pair.1 pair.2 then forest.join pair.1 pair.2 else forest

/-- The forest on the numbers below `n` in which linked numbers are in one tree. -/
def ofLinks (n : Nat) (linked : Nat → Nat → Bool) : Forest :=
  (pairs n).foldl (joinLinked linked) (discrete n)

/-- Adds a number to those that are known to have its root. -/
def gather (found : Forest × OrderedMap Nat (List Nat)) (i : Nat) :
    Forest × OrderedMap Nat (List Nat) :=
  let climb := (Climb.mk found.1 i).top
  (climb.forest, found.2.alter climb.index fun tree => tree.getD [] ++ [i])

/-- The numbers below `n` of each tree, in the order of the first number of each tree. -/
def trees (forest : Forest) (n : Nat) : List (List Nat) :=
  ((List.range n).foldl gather (forest, .empty)).2.values

end Forest

end ClassSymbols
