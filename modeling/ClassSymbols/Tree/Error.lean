import ClassSymbols.SymbolError
import ClassSymbols.Tree.Node

/-!
# Failures of building and analysing trees

## Main definitions

* `TreeError` — the failures.
* `TreeError.message` — their texts.
-/

namespace ClassSymbols

/-- Why a tree could not be built or analysed. -/
inductive TreeError where
  | missingAccessor (property : String) (accessor : AccessorKind)
  | unexpectedDeclaration (name : String) (expected : String) (found : String)
  | noDelegatingCall (className : String)
  | multipleDelegatingCalls (className : String)
  | unrelatedDelegatingCall (className : String) (target : String) (superclass : String)
  | noActiveBuilder
  | symbol (error : SymbolError)
  deriving DecidableEq, Repr

def TreeError.message : TreeError → String
  | .missingAccessor property accessor =>
    "property `" ++ property ++ "` has no " ++ accessor.label
  | .unexpectedDeclaration name expected found =>
    "expected " ++ expected ++ ", found " ++ found ++ " `" ++ name ++ "`"
  | .noDelegatingCall className =>
    "constructor of `" ++ className ++ "` has no delegating constructor call"
  | .multipleDelegatingCalls className =>
    "constructor of `" ++ className ++ "` has more than one delegating constructor call"
  | .unrelatedDelegatingCall className target superclass =>
    "constructor of `" ++ className ++ "` delegates to `" ++ target ++ "`; expected `" ++
      className ++ "` or its superclass `" ++ superclass ++ "`"
  | .noActiveBuilder => "no declaration builder is active"
  | .symbol error => error.message

end ClassSymbols
