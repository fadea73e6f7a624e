import ClassSymbols.Dump.Record
import ClassSymbols.Table.Error

/-!
# Type tables

The types that a package or a class refers to by number. Classes and package fragments own a table
each; every other declaration uses the one of the nearest enclosing class or package fragment.

## Main definitions

* `TypeTable` — the tables.
* `TypeTable.ofRecord` — a table from its stored form.
* `TypeTable.get` — the type with a given number.
-/

namespace ClassSymbols

/-- The types that a package or a class refers to by number. -/
structure TypeTable where
  types : List TypeRecord := []

namespace TypeTable

/-- The table of a stored one: the entries from `firstNullable` on are nullable. -/
def ofRecord (record : TypeTableRecord) : TypeTable :=
  match record.firstNullable with
  | none => ⟨record.types⟩
  | some first =>
    ⟨record.types.take first.toNat ++ (record.types.drop first.toNat).map (·.makeNullable)⟩

def get (table : TypeTable) (index : UInt32) : Except TableError TypeRecord :=
  match table.types[index.toNat]? with
  | some type => .ok type
  | none => .error (.missingType index)

def size (table : TypeTable) : Nat := table.types.length

def isEmpty (table : TypeTable) : Bool := table.types.isEmpty

end TypeTable

end ClassSymbols
