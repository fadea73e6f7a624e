import ClassSymbols.ClassId
import ClassSymbols.Dump.Record
import ClassSymbols.Limits
import ClassSymbols.Table.Error

/-!
# Name tables

The strings and the qualified names of one package fragment. A qualified name is an entry with a
short name and perhaps a parent entry; the class id of an entry is read off the path of its parents.
The links may form a cycle, so the path is followed for a limited number of entries.

## Main definitions

* `NameTable` — the two tables.
* `NameTable.string`, `NameTable.classId` — what an index stands for.
* `NameTable.validate` — whether every index inside the table is in range.
-/

namespace ClassSymbols

/-- The strings and the qualified names of a package fragment. -/
structure NameTable where
  strings : List String := []
  qualifiedNames : List QualifiedNameRecord := []
  deriving DecidableEq

namespace NameTable

def string (names : NameTable) (index : UInt32) : Except TableError String :=
  match names.strings[index.toNat]? with
  | some text => .ok text
  | none => .error (.missingString index)

def qualifiedName (names : NameTable) (index : UInt32) : Except TableError QualifiedNameRecord :=
  match names.qualifiedNames[index.toNat]? with
  | some entry => .ok entry
  | none => .error (.missingQualifiedName index)

/-- The kinds and short names on the path from entry `index` to an entry without a parent, the
entry itself first. The path of `start` is given up after `room` more entries. -/
def path (names : NameTable) (start : UInt32) :
    Nat → UInt32 → Except TableError (List (QualifiedNameKind × String))
  | 0, _ => .error (.corrupt "qualified name" s!"parent links of entry #{start} form a cycle")
  | room + 1, index => do
    let entry ← names.qualifiedName index
    let shortName ← names.string entry.shortName
    match entry.parent with
    | none => return [(entry.kind, shortName)]
    | some parent => return (entry.kind, shortName) :: (← path names start room parent)

/-- The class id that a path spells, the class's own entry first. -/
def classIdOfPath? (path : List (QualifiedNameKind × String)) : Option ClassId :=
  let outermostFirst := path.reverse
  let packages := outermostFirst.filter (·.1 == .package)
  let classes := outermostFirst.filter (·.1 != .package)
  if classes.isEmpty then none
  else some {
    package := Text.dotted (packages.map Prod.snd)
    relative := Text.dotted (classes.map Prod.snd)
    isLocal := path.any (·.1 == .localClass) }

def classId (names : NameTable) (index : UInt32) : Except TableError ClassId := do
  match classIdOfPath? (← names.path index Limits.qualifiedNameDepth index) with
  | some id => return id
  | none => throw (.notAClassName index)

/-- The fault of entry `index`, if its short name or its parent is out of range or it is its own
parent. -/
def fault? (names : NameTable) (index : Nat) (entry : QualifiedNameRecord) : Option TableError :=
  if names.strings.length ≤ entry.shortName.toNat then
    some (.corrupt "qualified name" s!"entry #{index} names missing string #{entry.shortName}")
  else
    match entry.parent with
    | some parent =>
      if names.qualifiedNames.length ≤ parent.toNat ∨ parent.toNat = index then
        some (.corrupt "qualified name" s!"entry #{index} has invalid parent #{parent}")
      else none
    | none => none

/-- Accepts a table in which no entry has a fault, and reports the first fault otherwise. -/
def validate (names : NameTable) : Except TableError Unit :=
  match names.qualifiedNames.zipIdx.findSome? fun (entry, index) => names.fault? index entry with
  | some error => .error error
  | none => .ok ()

end NameTable

end ClassSymbols
