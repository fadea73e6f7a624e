import ClassSymbols.Store.Basic
import Mathlib.Data.List.Nodup

/-!
# Well-formed stores

A store that was filled through its operations has each declaration under the declaration's own id,
and has given out that id before.

## Main definitions

* `Store.WellFormed` — the stores that are filled so.

## Main statements

* `Store.WellFormed.insert`, `Store.WellFormed.reserve` — the operations keep stores well-formed.
-/

namespace ClassSymbols

namespace Store

variable {store : Store} {id : DeclId} {declaration : Declaration}

/-! ## Views of the operations -/

@[simp] theorem get?_insert (store : Store) (declaration : Declaration) (id : DeclId) :
    (store.insert declaration).get? id =
      if declaration.id = id then some declaration else store.get? id := by
  simp [insert, get?]

@[simp] theorem next_insert (store : Store) (declaration : Declaration) :
    (store.insert declaration).next = store.next := rfl

@[simp] theorem get?_reserve (store : Store) (id : DeclId) :
    store.reserve.get? id = store.get? id := rfl

@[simp] theorem next_insertAll (store : Store) (declarations : List Declaration) :
    (store.insertAll declarations).next = store.next := by
  induction declarations generalizing store with
  | nil => rfl
  | cons declaration rest ih => exact (ih _).trans (next_insert _ _)

/-- What a store has under an id after a batch is the last declaration of the batch with that id,
and otherwise what it had. -/
theorem get?_insertAll (store : Store) (declarations : List Declaration) (id : DeclId) :
    (store.insertAll declarations).get? id =
      (declarations.reverse.find? (·.id == id)).or (store.get? id) := by
  induction declarations generalizing store with
  | nil => rfl
  | cons declaration rest ih =>
    rw [show store.insertAll (declaration :: rest) = (store.insert declaration).insertAll rest
      from rfl, ih, get?_insert, List.reverse_cons, List.find?_append]
    by_cases h : declaration.id = id <;>
      cases List.find? (·.id == id) rest.reverse <;> simp [h]

theorem get?_insertAll_of_forall_ne {declarations : List Declaration}
    (h : ∀ declaration ∈ declarations, declaration.id ≠ id) :
    (store.insertAll declarations).get? id = store.get? id := by
  rw [get?_insertAll, List.find?_eq_none.2 (by simpa using h), Option.none_or]

/-- A batch of declarations with different ids is stored as it is. -/
theorem get?_insertAll_of_mem {declarations : List Declaration}
    (h : (declarations.map (·.id)).Nodup) (hd : declaration ∈ declarations) :
    (store.insertAll declarations).get? declaration.id = some declaration := by
  rw [get?_insertAll]
  obtain ⟨found, hfound⟩ : ∃ found,
      declarations.reverse.find? (·.id == declaration.id) = some found := by
    rw [← Option.isSome_iff_exists, List.find?_isSome]
    exact ⟨declaration, List.mem_reverse.2 hd, by simp⟩
  have same : found.id = declaration.id := by simpa using List.find?_some hfound
  have mem : found ∈ declarations := List.mem_reverse.1 (List.mem_of_find?_eq_some hfound)
  rw [hfound, List.inj_on_of_nodup_map h mem hd same, Option.some_or]

theorem resolve_eq_ok_iff :
    store.resolve id = .ok declaration ↔ store.get? id = some declaration := by
  unfold resolve
  cases store.get? id <;> simp

/-! ## Well-formedness -/

/-- Declarations are stored under their own ids, which have been given out. -/
structure WellFormed (store : Store) : Prop where
  keyed : ∀ {id declaration}, store.get? id = some declaration → declaration.id = id
  allocated : ∀ {id declaration}, store.get? id = some declaration → id.number < store.next.number

theorem WellFormed.empty : Store.empty.WellFormed :=
  ⟨by simp [Store.empty, get?], by simp [Store.empty, get?]⟩

theorem WellFormed.insert (h : store.WellFormed)
    (allocated : declaration.id.number < store.next.number) :
    (store.insert declaration).WellFormed := by
  constructor
  · intro id stored hs
    rw [get?_insert] at hs
    split at hs
    · next e => exact Option.some.inj hs ▸ e
    · exact h.keyed hs
  · intro id stored hs
    rw [get?_insert] at hs
    split at hs
    · next e => exact e ▸ allocated
    · exact h.allocated hs

theorem WellFormed.insertAll (h : store.WellFormed) {declarations : List Declaration}
    (allocated : ∀ declaration ∈ declarations, declaration.id.number < store.next.number) :
    (store.insertAll declarations).WellFormed := by
  induction declarations generalizing store with
  | nil => exact h
  | cons declaration rest ih =>
    exact ih (h.insert (allocated _ List.mem_cons_self))
      fun other ho => allocated other (List.mem_cons_of_mem _ ho)

theorem WellFormed.reserve (h : store.WellFormed) : store.reserve.WellFormed :=
  ⟨h.keyed, fun hs => Nat.lt_succ_of_lt (h.allocated hs)⟩

end Store

end ClassSymbols
