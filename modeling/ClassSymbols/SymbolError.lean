import ClassSymbols.DeclId
import ClassSymbols.Diagnostic.Basic
import ClassSymbols.Table.Error

/-!
# Resolution errors

Why a declaration, a type or the members of a class could not be resolved.

## Main definitions

* `SymbolError` — the causes.
* `SymbolError.within` — says in which symbol and scope an unresolved reference was met.
* `SymbolError.message`, `SymbolError.diagnostics` — the texts.
-/

namespace ClassSymbols

/-- Two members that cannot be in one class, with their signatures. `declared` says that the first
one is declared in the class and not inherited. -/
structure ConflictReport where
  first : DeclId
  second : DeclId
  firstSignature : String
  secondSignature : String
  declared : Bool
  deriving DecidableEq, Repr

/-- Why something could not be resolved. -/
inductive SymbolError where
  | malformedChain (reason : String)
  | unresolvedType (index : UInt32) (symbol : String) (scope : String)
  | unresolvedName (index : UInt32) (symbol : String) (scope : String)
  | ambiguousLookup (name : String) (count : Nat)
  | overrideConflict (className : String) (conflicts : List ConflictReport)
  | corruptTable (error : TableError)
  | unknownDeclaration (id : DeclId)
  deriving DecidableEq, Repr

namespace SymbolError

/-- The resolution error of a failed table lookup. A number out of range is an unresolved reference
whose symbol and scope are not known yet; any other failure is a corrupt table. -/
def ofTableError : TableError → SymbolError
  | .missingString index => .unresolvedName index "" ""
  | .missingQualifiedName index => .unresolvedName index "" ""
  | .missingType index => .unresolvedType index "" ""
  | error => .corruptTable error

/-- The given text, or another one in the place of the empty text. -/
def orElse (text otherwise : String) : String := if text.isEmpty then otherwise else text

/-- The same error, with the symbol and the scope of an unresolved reference filled in where they
are not known yet. -/
def within (symbol scope : String) : SymbolError → SymbolError
  | .unresolvedType index symbol' scope' =>
    .unresolvedType index (orElse symbol' symbol) (orElse scope' scope)
  | .unresolvedName index symbol' scope' =>
    .unresolvedName index (orElse symbol' symbol) (orElse scope' scope)
  | error => error

def kind : SymbolError → MessageKind
  | .malformedChain _ => .malformedChain
  | .unresolvedType .. => .unresolvedType
  | .unresolvedName .. => .unresolvedName
  | .ambiguousLookup .. => .ambiguousLookup
  | .overrideConflict .. => .overrideConflict
  | .corruptTable _ => .corruptTable
  | .unknownDeclaration _ => .unknownDeclaration

def code (error : SymbolError) : Nat := error.kind.code

def message : SymbolError → String
  | .malformedChain reason => "malformed enclosing chain: " ++ reason
  | .unresolvedType index symbol scope =>
    s!"unresolved type reference #{index} in `" ++ symbol ++ "` (" ++ scope ++ ")"
  | .unresolvedName index symbol scope =>
    s!"unresolved name reference #{index} in `" ++ symbol ++ "` (" ++ scope ++ ")"
  | .ambiguousLookup name count => s!"{count} classifiers named `" ++ name ++ "` are visible"
  | .overrideConflict className conflicts =>
    "class `" ++ className ++ "` has " ++ toString conflicts.length ++
      " unresolved override conflict(s)"
  | .corruptTable error => "corrupt symbol table: " ++ error.message
  | .unknownDeclaration id => "declaration " ++ id.display ++ " is not registered"

def conflictDiagnostic (file className : String) (conflict : ConflictReport) : Diagnostic :=
  if conflict.declared then
    .ofKind file .incompatibleOverride
      [conflict.firstSignature, className, conflict.secondSignature]
  else
    .ofKind file .overrideConflict
      [className, conflict.firstSignature, conflict.secondSignature]

/-- The diagnostics of an error, about `file`: one for each conflict of a class, and one for any
other error. -/
def diagnostics (file : String) : SymbolError → List Diagnostic
  | .malformedChain reason => [.ofKind file .malformedChain [reason]]
  | .unresolvedType index symbol scope =>
    [.ofKind file .unresolvedType [toString index, symbol, scope]]
  | .unresolvedName index symbol scope =>
    [.ofKind file .unresolvedName [toString index, symbol, scope]]
  | .ambiguousLookup name _ => [.ofKind file .ambiguousLookup [name]]
  | .overrideConflict className conflicts => conflicts.map (conflictDiagnostic file className)
  | .corruptTable error => [.ofKind file .corruptTable [error.message]]
  | .unknownDeclaration id => [.ofKind file .unknownDeclaration [toString id.number]]

end SymbolError

end ClassSymbols
