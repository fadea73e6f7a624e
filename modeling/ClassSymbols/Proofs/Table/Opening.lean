import ClassSymbols.Proofs.Data.Grouping
import ClassSymbols.Proofs.Data.Traversal
import ClassSymbols.Table.SymbolTable

/-!
# Opened tables

A stored table that can be opened has its package fragments under their own names, in their order.

## Main definitions

* `FragmentRecord.opened` — a package fragment as it stands in an opened table.

## Main statements

* `SymbolTable.entries_of_ofDump`, `SymbolTable.fragment_of_ofDump` — the package fragments of an
  opened table.
-/

namespace ClassSymbols

/-- A stored package fragment as it stands in an opened table. -/
def FragmentRecord.opened (record : FragmentRecord) : Fragment where
  names := ⟨record.strings, record.qualifiedNames⟩
  types := .ofRecord record.package.typeTable
  classes := record.classes
  records := record.localDeclarations

namespace SymbolTable

theorem eq_opened_of_openFragment {record : FragmentRecord} {fragment : Fragment}
    (h : openFragment record = .ok fragment) : fragment = record.opened := by
  obtain ⟨_, -, h⟩ := Except.bind_eq_ok_iff.1 h
  exact (Except.ok.inj h).symm

/-- Fragments that are opened come after those that are open already. -/
theorem entries_of_openFragments {records : List FragmentRecord}
    {opened fragments : OrderedMap String Fragment}
    (h : openFragments opened records = .ok fragments) :
    fragments.entries = opened.entries ++ records.map fun record =>
      (record.name, record.opened) := by
  induction records generalizing opened with
  | nil =>
    obtain rfl := Except.ok.inj h
    simp
  | cons record rest ih =>
    obtain ⟨fragment, found, h⟩ := Except.bind_eq_ok_iff.1 h
    obtain rfl := eq_opened_of_openFragment found
    cases twice : opened.contains record.name with
    | true => simp [twice, throw, throwThe, MonadExceptOf.throw, bind, Except.bind] at h
    | false =>
      have absent : opened.get? record.name = none := by simpa [OrderedMap.contains] using twice
      have later : openFragments (opened.insert record.name record.opened) rest =
          .ok fragments := by
        simpa [twice, bind, Except.bind, pure, Except.pure] using h
      rw [ih later, OrderedMap.entries_insert_of_get?_eq_none absent]
      simp

variable {dump : TableDump} {table : SymbolTable} (h : ofDump dump = .ok table)
include h

theorem module_of_ofDump : table.module = dump.module := by
  obtain ⟨_, -, h⟩ := Except.bind_eq_ok_iff.1 h
  exact Except.ok.inj h ▸ rfl

theorem entries_of_ofDump :
    table.fragments.entries = dump.fragments.map fun record => (record.name, record.opened) := by
  obtain ⟨fragments, opened, h⟩ := Except.bind_eq_ok_iff.1 h
  obtain rfl := Except.ok.inj h
  exact entries_of_openFragments opened

theorem fragmentNames_of_ofDump : table.fragmentNames = dump.fragments.map (·.name) := by
  rw [fragmentNames, OrderedMap.keys, entries_of_ofDump h, List.map_map]
  rfl

/-- No two package fragments of a table that can be opened have one name. -/
theorem nodup_names_of_ofDump : (dump.fragments.map (·.name)).Nodup :=
  fragmentNames_of_ofDump h ▸ table.fragments.nodup_keys

theorem fragment_of_ofDump {record : FragmentRecord} (hr : record ∈ dump.fragments) :
    table.fragment record.name = .ok record.opened := by
  have listed : (record.name, record.opened) ∈ table.fragments.entries := by
    rw [entries_of_ofDump h]
    exact List.mem_map_of_mem (f := fun record : FragmentRecord => (record.name, record.opened)) hr
  rw [fragment, (OrderedMap.mem_entries_iff _).1 listed]

end SymbolTable

end ClassSymbols
