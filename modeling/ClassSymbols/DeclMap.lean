import ClassSymbols.DeclId
import Std.Data.TreeMap

/-!
# Maps from declaration ids

Finite maps whose keys are declaration ids. Ids are numbers, so the entries are kept in a search
tree and listed in ascending order; looking one up does not depend on when it was stored.

## Main definitions

* `DeclMap` — the maps.
* `DeclMap.get?` — the view through which operations are described.
* `DeclMap.insert` — the way to change one key.
-/

namespace ClassSymbols

/-- A finite map from declaration ids. -/
structure DeclMap (α : Type) where
  entries : Std.TreeMap Nat α := ∅

namespace DeclMap

variable {α : Type}

def empty : DeclMap α := {}

instance : Inhabited (DeclMap α) := ⟨empty⟩

def get? (m : DeclMap α) (id : DeclId) : Option α := m.entries[id.number]?

def contains (m : DeclMap α) (id : DeclId) : Bool := (m.get? id).isSome

/-- The ids under which a value is stored, in ascending order. -/
def keys (m : DeclMap α) : List DeclId := m.entries.keys.map DeclId.mk

def size (m : DeclMap α) : Nat := m.entries.size

def isEmpty (m : DeclMap α) : Bool := m.entries.isEmpty

/-- Stores a value under an id, in the place of any value that is stored there. -/
def insert (m : DeclMap α) (id : DeclId) (a : α) : DeclMap α where
  entries := m.entries.insert id.number a

@[simp] theorem get?_empty (id : DeclId) : (empty : DeclMap α).get? id = none := by
  simp [empty, get?]

@[simp] theorem get?_insert (m : DeclMap α) (id other : DeclId) (a : α) :
    (m.insert id a).get? other = if id = other then some a else m.get? other := by
  cases id
  cases other
  simp [insert, get?, Std.TreeMap.getElem?_insert]

theorem mem_keys_iff (m : DeclMap α) (id : DeclId) : id ∈ m.keys ↔ (m.get? id).isSome := by
  cases id
  simp [keys, get?]

theorem mem_keys_of_get?_ne_none (m : DeclMap α) {id : DeclId} (h : m.get? id ≠ none) :
    id ∈ m.keys :=
  (m.mem_keys_iff id).2 (Option.isSome_iff_ne_none.2 h)

end DeclMap

end ClassSymbols
