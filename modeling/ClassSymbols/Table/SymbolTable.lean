import ClassSymbols.Data.OrderedMap
import ClassSymbols.Dump.Decode
import ClassSymbols.Json.Reader
import ClassSymbols.Table.Names
import ClassSymbols.Table.Types

/-!
# Symbol tables

The symbol table of one module, opened for reading: its package fragments with their name tables,
type tables, top-level classes and local records.

## Main definitions

* `SymbolTable` — the opened tables.
* `SymbolTable.ofDump`, `SymbolTable.ofText` — opening a table.
* `SymbolTable.record`, `SymbolTable.nameTable`, `SymbolTable.packageTypes`,
  `SymbolTable.classTypes`, `SymbolTable.classes` — what a table answers.
-/

namespace ClassSymbols

/-- The most arrays and objects that lie inside one another in the text of a table. -/
def textNesting : Nat := 127

/-- One package fragment of an opened table. -/
structure Fragment where
  names : NameTable
  types : TypeTable
  classes : List ClassRecord
  records : List LocalRecord

/-- The symbol table of a module. -/
structure SymbolTable where
  module : String
  fragments : OrderedMap String Fragment

namespace SymbolTable

def openFragment (record : FragmentRecord) : Except TableError Fragment := do
  let names : NameTable := ⟨record.strings, record.qualifiedNames⟩
  names.validate
  return {
    names
    types := .ofRecord record.package.typeTable
    classes := record.classes
    records := record.localDeclarations }

def openFragments (opened : OrderedMap String Fragment) :
    List FragmentRecord → Except TableError (OrderedMap String Fragment)
  | [] => .ok opened
  | record :: rest => do
    let fragment ← openFragment record
    if opened.contains record.name then
      throw (.corrupt "fragment" ("package fragment `" ++ record.name ++ "` appears twice"))
    openFragments (opened.insert record.name fragment) rest

/-- Opens a stored table: every name table must be without fault, and no two fragments may have
one name. -/
def ofDump (dump : TableDump) : Except TableError SymbolTable := do
  return { module := dump.module, fragments := ← openFragments .empty dump.fragments }

def decodeText {α : Type} (decoder : Json.Decoder α) (text : String) : Except TableError α :=
  match Json.parse? text with
  | none => .error (.undecodable "the text is not one JSON document")
  | some json =>
    match decoder textNesting json with
    | none => .error (.undecodable "the document does not have the form of a record")
    | some a => .ok a

def ofText (text : String) : Except TableError SymbolTable := do
  ofDump (← decodeText TableDump.decoder text)

def fragmentNames (table : SymbolTable) : List String := table.fragments.keys

def fragment (table : SymbolTable) (name : String) : Except TableError Fragment :=
  match table.fragments.get? name with
  | some fragment => .ok fragment
  | none => .error (.unknownFragment name)

def record (table : SymbolTable) (ref : RecordRef) : Except TableError LocalRecord := do
  let fragment ← table.fragment ref.fragment
  match fragment.records[ref.index.toNat]? with
  | some record => return record
  | none => throw (.unknownRecord ref.fragment ref.index)

def nameTable (table : SymbolTable) (name : String) : Except TableError NameTable :=
  (table.fragment name).map (·.names)

def packageTypes (table : SymbolTable) (name : String) : Except TableError TypeTable :=
  (table.fragment name).map (·.types)

def classTypes (table : SymbolTable) (name : String) (index : UInt32) :
    Except TableError TypeTable := do
  let fragment ← table.fragment name
  match fragment.classes[index.toNat]? with
  | some record => return .ofRecord record.typeTable
  | none => throw (.unknownClass name index)

def classes (table : SymbolTable) (name : String) : Except TableError (List ClassRecord) :=
  (table.fragment name).map (·.classes)

end SymbolTable

end ClassSymbols
