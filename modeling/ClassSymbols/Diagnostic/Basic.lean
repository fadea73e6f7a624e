import ClassSymbols.Diagnostic.Template
import ClassSymbols.Dump.Keyword

/-!
# Diagnostics

A diagnostic says what is wrong, in which unit, and perhaps what else is involved. The messages of
the known faults are kept in a catalogue under stable numbers.

## Main definitions

* `Diagnostic`, `RelatedInformation`, `Category` — the diagnostics.
* `MessageKind` — the known faults with their numbers and templates.
* `Diagnostic.ofCode` — the diagnostic of a number and its arguments.
-/

namespace ClassSymbols

/-- How serious a diagnostic is. -/
inductive Category where
  | warning
  | error
  | suggestion
  | message
  deriving DecidableEq, Repr

instance : Keyword Category where
  all := [.warning, .error, .suggestion, .message]
  text
    | .warning => "Warning"
    | .error => "Error"
    | .suggestion => "Suggestion"
    | .message => "Message"

/-- What else is involved in the fault that a diagnostic reports. -/
structure RelatedInformation where
  file : String
  start : Nat
  length : Nat
  message : String
  category : Category := .message
  code : Nat := 0
  deriving DecidableEq, Repr

/-- A report about one unit. Symbol tables have no offsets, so `start` and `length` are zero unless
the reporter knows better. -/
structure Diagnostic where
  file : String
  start : Nat := 0
  length : Nat := 0
  message : String
  category : Category := .error
  code : Nat
  related : List RelatedInformation := []
  deriving DecidableEq, Repr

/-- The faults that have a number and a message of their own. -/
inductive MessageKind where
  | malformedChain
  | unresolvedType
  | unresolvedName
  | ambiguousLookup
  | overrideConflict
  | corruptTable
  | unknownDeclaration
  | incompatibleOverride
  deriving DecidableEq, Repr

namespace MessageKind

/-- All faults, in the order of their numbers. -/
def all : List MessageKind :=
  [.malformedChain, .unresolvedType, .unresolvedName, .ambiguousLookup, .overrideConflict,
    .corruptTable, .unknownDeclaration, .incompatibleOverride]

def code : MessageKind → Nat
  | .malformedChain => 7001
  | .unresolvedType => 7002
  | .unresolvedName => 7003
  | .ambiguousLookup => 7004
  | .overrideConflict => 7005
  | .corruptTable => 7006
  | .unknownDeclaration => 7007
  | .incompatibleOverride => 7008

def category : MessageKind → Category := fun _ => .error

def template : MessageKind → String
  | .malformedChain => "Enclosing declaration chain is malformed: \x7b0\x7d."
  | .unresolvedType =>
    "Type reference #\x7b0\x7d cannot be resolved while deserializing '\x7b1\x7d' in \x7b2\x7d."
  | .unresolvedName =>
    "Name reference #\x7b0\x7d cannot be resolved while deserializing '\x7b1\x7d' in \x7b2\x7d."
  | .ambiguousLookup => "More than one classifier named '\x7b0\x7d' is visible in this scope."
  | .overrideConflict =>
    "Class '\x7b0\x7d' inherits conflicting members '\x7b1\x7d' and '\x7b2\x7d' " ++
      "and must override them."
  | .corruptTable => "Symbol table is corrupt: \x7b0\x7d."
  | .unknownDeclaration => "Declaration #\x7b0\x7d is not registered."
  | .incompatibleOverride =>
    "'\x7b0\x7d' declared in '\x7b1\x7d' clashes with inherited '\x7b2\x7d'."

def ofCode? (code : Nat) : Option MessageKind := all.find? (·.code == code)

end MessageKind

namespace Diagnostic

/-- The diagnostic of a number and its arguments, about `file`. The message of a number that no
fault has is its arguments, joined. -/
def ofCode (file : String) (code : Nat) (arguments : List String) : Diagnostic :=
  match MessageKind.ofCode? code with
  | some kind =>
    { file, code, message := formatMessage kind.template arguments, category := kind.category }
  | none => { file, code, message := ": ".intercalate arguments }

def ofKind (file : String) (kind : MessageKind) (arguments : List String) : Diagnostic :=
  ofCode file kind.code arguments

def withRelated (diagnostic : Diagnostic) (file : String) (start length : Nat) (message : String) :
    Diagnostic :=
  { diagnostic with related := diagnostic.related ++ [{ file, start, length, message }] }

end Diagnostic

end ClassSymbols
