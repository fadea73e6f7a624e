/-!
# Failures of table lookups

A number that is out of range is a failure of its own for strings, qualified names and types, so
that an unresolved reference can be told from a broken table.

## Main definitions

* `TableError` — the failures.
* `TableError.message` — their texts.
-/

namespace ClassSymbols

/-- Why a symbol table could not be read, or did not answer. -/
inductive TableError where
  | missingString (index : UInt32)
  | missingQualifiedName (index : UInt32)
  | missingType (index : UInt32)
  | notAClassName (index : UInt32)
  | unknownFragment (name : String)
  | unknownRecord (fragment : String) (index : UInt32)
  | unknownClass (fragment : String) (index : UInt32)
  | corrupt (table : String) (detail : String)
  | undecodable (detail : String)
  deriving DecidableEq, Repr

def TableError.message : TableError → String
  | .missingString index => s!"string #{index} is not in the string table"
  | .missingQualifiedName index => s!"qualified name #{index} is not in the qualified-name table"
  | .missingType index => s!"type #{index} is not in the active type table"
  | .notAClassName index => s!"qualified name #{index} does not name a class"
  | .unknownFragment name => "package fragment `" ++ name ++ "` is not part of this symbol table"
  | .unknownRecord fragment index =>
    s!"record #{index} does not exist in package fragment `" ++ fragment ++ "`"
  | .unknownClass fragment index =>
    s!"class #{index} does not exist in package fragment `" ++ fragment ++ "`"
  | .corrupt table detail => table ++ " table is corrupt: " ++ detail
  | .undecodable detail => "cannot decode symbol table dump: " ++ detail

end ClassSymbols
