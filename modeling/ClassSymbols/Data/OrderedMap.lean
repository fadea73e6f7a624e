/-!
# Finite maps in insertion order

A map is a list of key/value pairs without repeated keys. Inserting under a key that is already
there replaces its value and keeps its place; a new key goes to the end. Every listing of a map
follows this order, so listings are reproducible.

## Main definitions

* `OrderedMap` — the maps, with the absence of repeated keys in the type.
* `OrderedMap.get?` — the view through which operations are described.
* `OrderedMap.insert`, `OrderedMap.alter` — the two ways to change one key.
-/

namespace ClassSymbols

/-- A finite map that lists its entries in the order in which their keys were first inserted. -/
structure OrderedMap (κ : Type) (α : Type) where
  entries : List (κ × α) := []
  nodup_keys : (entries.map Prod.fst).Nodup := by simp

namespace OrderedMap

variable {κ α : Type} [DecidableEq κ]

/-! ## Entry lists -/

def lookup (k : κ) : List (κ × α) → Option α
  | [] => none
  | (j, a) :: rest => if j = k then some a else lookup k rest

def replaceOrAppend (k : κ) (a : α) : List (κ × α) → List (κ × α)
  | [] => [(k, a)]
  | (j, b) :: rest => if j = k then (j, a) :: rest else (j, b) :: replaceOrAppend k a rest

theorem lookup_replaceOrAppend (k j : κ) (a : α) (entries : List (κ × α)) :
    lookup j (replaceOrAppend k a entries) = if k = j then some a else lookup j entries := by
  induction entries with
  | nil => rfl
  | cons entry rest ih => grind [lookup, replaceOrAppend]

theorem map_fst_replaceOrAppend (k : κ) (a : α) (entries : List (κ × α)) :
    (replaceOrAppend k a entries).map Prod.fst =
      if k ∈ entries.map Prod.fst then entries.map Prod.fst
      else entries.map Prod.fst ++ [k] := by
  induction entries with
  | nil => rfl
  | cons entry rest ih => grind [replaceOrAppend]

theorem nodup_replaceOrAppend (k : κ) (a : α) (entries : List (κ × α))
    (h : (entries.map Prod.fst).Nodup) :
    ((replaceOrAppend k a entries).map Prod.fst).Nodup := by
  rw [map_fst_replaceOrAppend]
  split
  · exact h
  · next absent =>
    exact List.nodup_append.2 ⟨h, by simp, fun x hx y hy => by
      rw [List.mem_singleton] at hy; subst hy; exact fun e => absent (e ▸ hx)⟩

theorem lookup_isSome_iff (k : κ) (entries : List (κ × α)) :
    (lookup k entries).isSome ↔ k ∈ entries.map Prod.fst := by
  induction entries with
  | nil => simp [lookup]
  | cons entry rest ih => grind [lookup]

/-! ## Maps -/

def empty : OrderedMap κ α := {}

instance : Inhabited (OrderedMap κ α) := ⟨empty⟩

def get? (m : OrderedMap κ α) (k : κ) : Option α := lookup k m.entries

def contains (m : OrderedMap κ α) (k : κ) : Bool := (m.get? k).isSome

def keys (m : OrderedMap κ α) : List κ := m.entries.map Prod.fst

def values (m : OrderedMap κ α) : List α := m.entries.map Prod.snd

def size (m : OrderedMap κ α) : Nat := m.entries.length

def isEmpty (m : OrderedMap κ α) : Bool := m.entries.isEmpty

/-- Stores `a` under `k`, in place when `k` is present and at the end otherwise. -/
def insert (m : OrderedMap κ α) (k : κ) (a : α) : OrderedMap κ α where
  entries := replaceOrAppend k a m.entries
  nodup_keys := nodup_replaceOrAppend k a m.entries m.nodup_keys

/-- Stores under `k` the value that `f` makes of the one stored there. -/
def alter (m : OrderedMap κ α) (k : κ) (f : Option α → α) : OrderedMap κ α :=
  m.insert k (f (m.get? k))

def ofList (pairs : List (κ × α)) : OrderedMap κ α :=
  pairs.foldl (fun m pair => m.insert pair.1 pair.2) empty

@[simp] theorem get?_empty (k : κ) : (empty : OrderedMap κ α).get? k = none := rfl

@[simp] theorem get?_insert (m : OrderedMap κ α) (k j : κ) (a : α) :
    (m.insert k a).get? j = if k = j then some a else m.get? j :=
  lookup_replaceOrAppend k j a m.entries

theorem keys_insert (m : OrderedMap κ α) (k : κ) (a : α) :
    (m.insert k a).keys = if k ∈ m.keys then m.keys else m.keys ++ [k] :=
  map_fst_replaceOrAppend k a m.entries

theorem mem_keys_iff (m : OrderedMap κ α) (k : κ) : k ∈ m.keys ↔ (m.get? k).isSome :=
  (lookup_isSome_iff k m.entries).symm

end OrderedMap

end ClassSymbols
