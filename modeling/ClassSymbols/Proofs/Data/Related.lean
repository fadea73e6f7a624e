import ClassSymbols.Data.OrderedMap
import Mathlib.Data.List.Forall2
import Mathlib.Logic.Function.Basic

/-!
# Related lists and maps

Searches in lists whose elements are related in turn, and operations on maps whose entries are.

## Main definitions

* `OrderedMap.Related` — maps with translated keys and related values in the same order.

## Main statements

* `OrderedMap.Related.get?`, `OrderedMap.Related.insert` — operations on related maps.
* `exists_injective_of_biUnique` — a relation that is unique both ways is part of an injective
  function.
-/

namespace ClassSymbols

variable {α β κ κ' : Type} {R : α → β → Prop}

/-! ## Options -/

theorem exists_of_rel_some {a : α} {b : Option β} (h : Option.Rel R (some a) b) :
    ∃ b', b = some b' ∧ R a b' := by
  cases h with
  | some h => exact ⟨_, rfl, h⟩

/-! ## Lists -/

theorem rel_find? {p : α → Bool} {q : β → Bool} (same : ∀ {a b}, R a b → p a = q b) {xs : List α}
    {ys : List β} (h : List.Forall₂ R xs ys) : Option.Rel R (xs.find? p) (ys.find? q) := by
  induction h with
  | nil => exact .none
  | cons first _ ih =>
    rw [List.find?_cons, List.find?_cons, same first]
    split
    · exact .some first
    · exact ih

theorem forall₂_zipIdx {xs : List α} {ys : List β} (h : List.Forall₂ R xs ys) (n : Nat) :
    List.Forall₂ (fun a b => R a.1 b.1 ∧ a.2 = b.2) (xs.zipIdx n) (ys.zipIdx n) := by
  induction h generalizing n with
  | nil => exact .nil
  | cons first _ ih => exact .cons ⟨first, rfl⟩ (ih (n + 1))

theorem forall₂_any {p : α → Bool} {q : β → Bool} {xs : List α} {ys : List β}
    (h : List.Forall₂ (fun a b => p a = q b) xs ys) : xs.any p = ys.any q := by
  induction h with
  | nil => rfl
  | cons first _ ih => rw [List.any_cons, List.any_cons, first, ih]

theorem forall₂_all {p : α → Bool} {q : β → Bool} {xs : List α} {ys : List β}
    (h : List.Forall₂ (fun a b => p a = q b) xs ys) : xs.all p = ys.all q := by
  induction h with
  | nil => rfl
  | cons first _ ih => rw [List.all_cons, List.all_cons, first, ih]

theorem forall₂_getElem? {xs : List α} {ys : List β} (h : List.Forall₂ R xs ys) (i : Nat) :
    Option.Rel R xs[i]? ys[i]? := by
  induction h generalizing i with
  | nil => exact .none
  | cons first _ ih =>
    cases i with
    | zero => exact .some first
    | succ i => exact ih i

theorem forall₂_map_eq {g : α → β} {xs : List α} {ys : List β} :
    List.Forall₂ (fun a b => b = g a) xs ys ↔ ys = xs.map g := by
  induction xs generalizing ys with
  | nil => simp
  | cons x xs ih =>
    rw [List.forall₂_cons_left_iff, List.map_cons]
    constructor
    · rintro ⟨_, ys, rfl, others, rfl⟩
      rw [ih.1 others]
    · rintro rfl
      exact ⟨_, _, rfl, ih.2 rfl, rfl⟩

/-- What is related to related elements is related. -/
theorem forall₂_square {γ δ : Type} {P : α → γ → Prop} {Q : β → δ → Prop} {S : γ → δ → Prop}
    (step : ∀ {a b c d}, R a b → P a c → Q b d → S c d) {xs : List α} {ys : List β}
    (h : List.Forall₂ R xs ys) {zs : List γ} {ws : List δ} (hz : List.Forall₂ P xs zs)
    (hw : List.Forall₂ Q ys ws) : List.Forall₂ S zs ws := by
  induction h generalizing zs ws with
  | nil =>
    cases hz
    cases hw
    exact .nil
  | cons first _ ih =>
    obtain ⟨c, zs', hc, rest, rfl⟩ := List.forall₂_cons_left_iff.1 hz
    obtain ⟨d, ws', hd, rest', rfl⟩ := List.forall₂_cons_left_iff.1 hw
    exact .cons (step first hc hd) (ih rest rest')

/-! ## Maps -/

namespace OrderedMap

variable [DecidableEq κ] [DecidableEq κ'] {g : κ → κ'} {m : OrderedMap κ α} {m' : OrderedMap κ' β}

/-- Whether two maps list translated keys with related values in the same order. -/
def Related (g : κ → κ') (R : α → β → Prop) (m : OrderedMap κ α) (m' : OrderedMap κ' β) : Prop :=
  List.Forall₂ (fun e e' => e'.1 = g e.1 ∧ R e.2 e'.2) m.entries m'.entries

omit [DecidableEq κ] [DecidableEq κ'] in
theorem Related.empty : Related g R empty empty := .nil

omit [DecidableEq κ] in
/-- Maps with the same keys and values are the same. -/
theorem Related.eq {m m' : OrderedMap κ α} (h : Related id (fun a b => b = a) m m') : m' = m := by
  obtain ⟨entries, _⟩ := m
  obtain ⟨entries', _⟩ := m'
  change List.Forall₂ _ entries entries' at h
  have same : entries' = entries.map id :=
    forall₂_map_eq.1 (h.imp fun _ _ both => Prod.ext both.1 both.2)
  rw [List.map_id] at same
  subst same
  rfl

variable (injective : Function.Injective g)
include injective

theorem Related.get? (h : Related g R m m') (k : κ) : Option.Rel R (m.get? k) (m'.get? (g k)) := by
  obtain ⟨entries, _⟩ := m
  obtain ⟨entries', _⟩ := m'
  change List.Forall₂ _ entries entries' at h
  change Option.Rel R (lookup k entries) (lookup (g k) entries')
  induction h with
  | nil => exact .none
  | @cons entry entry' rest rest' first others ih =>
    obtain ⟨j, a⟩ := entry
    obtain ⟨_, b⟩ := entry'
    obtain ⟨rfl, related⟩ := first
    rw [lookup, lookup]
    by_cases same : j = k
    · rw [if_pos same, if_pos (congrArg g same)]
      exact .some related
    · rw [if_neg same, if_neg (injective.ne same)]
      refine ih ?_ ?_ <;> simp_all

theorem Related.insert (h : Related g R m m') (k : κ) {a : α} {b : β} (related : R a b) :
    Related g R (m.insert k a) (m'.insert (g k) b) := by
  obtain ⟨entries, _⟩ := m
  obtain ⟨entries', _⟩ := m'
  change List.Forall₂ _ entries entries' at h
  change List.Forall₂ _ (replaceOrAppend k a entries) (replaceOrAppend (g k) b entries')
  induction h with
  | nil => exact .cons ⟨rfl, related⟩ .nil
  | @cons entry entry' rest rest' first others ih =>
    obtain ⟨j, a'⟩ := entry
    obtain ⟨_, b'⟩ := entry'
    obtain ⟨rfl, related'⟩ := first
    rw [replaceOrAppend, replaceOrAppend]
    by_cases same : j = k
    · rw [if_pos same, if_pos (congrArg g same)]
      exact .cons ⟨rfl, related⟩ others
    · rw [if_neg same, if_neg (injective.ne same)]
      refine .cons ⟨rfl, related'⟩ (ih ?_ ?_) <;> simp_all

theorem Related.alter (h : Related g R m m') (k : κ) {f : Option α → α} {f' : Option β → β}
    (related : ∀ {x y}, Option.Rel R x y → R (f x) (f' y)) :
    Related g R (m.alter k f) (m'.alter (g k) f') :=
  h.insert injective k (related (h.get? injective k))

end OrderedMap

/-! ## Functions -/

/-- A relation that is unique both ways and leads to bounded numbers is part of an injective
function. -/
theorem exists_injective_of_biUnique {R : Nat → Nat → Prop} {bound : Nat}
    (unique : Relator.BiUnique R) (bounded : ∀ {a b}, R a b → b < bound) :
    ∃ f : Nat → Nat, Function.Injective f ∧ ∀ {a b}, R a b → f a = b := by
  classical
  let f a := if h : ∃ b, R a b then h.choose else a + bound
  have related {a b : Nat} (h : R a b) : f a = b := by
    have found : ∃ b, R a b := ⟨b, h⟩
    exact (dif_pos found).trans (unique.2 found.choose_spec h)
  refine ⟨f, fun a b same => ?_, related⟩
  by_cases ha : ∃ b, R a b <;> by_cases hb : ∃ c, R b c
  · obtain ⟨c, hc⟩ := ha
    obtain ⟨d, hd⟩ := hb
    rw [related hc, related hd] at same
    exact unique.1 hc (same ▸ hd)
  · obtain ⟨c, hc⟩ := ha
    have outside : f b = b + bound := dif_neg hb
    have := bounded hc
    rw [related hc, outside] at same
    omega
  · obtain ⟨d, hd⟩ := hb
    have outside : f a = a + bound := dif_neg ha
    have := bounded hd
    rw [related hd, outside] at same
    omega
  · have outside : f a = a + bound := dif_neg ha
    have outside' : f b = b + bound := dif_neg hb
    rw [outside, outside'] at same
    omega

end ClassSymbols
