import ClassSymbols.Diagnostic.Report
import ClassSymbols.Loading.Local
import ClassSymbols.Loading.Module
import ClassSymbols.Overrides.Effective

/-!
# Sessions

The two commands on the symbol table of a file: resolving one local record, and listing the
effective members of a class. A file that cannot be opened, read or loaded ends a command; what
fails after that is reported in diagnostics.

## Main definitions

* `Session` — a loaded symbol table with its store.
* `Session.load` — the session of a file.
* `resolveCommand`, `overridesCommand` — the commands.
-/

namespace ClassSymbols

/-- What a command gives: a text, and diagnostics about the file. -/
structure CommandResult where
  output : String
  diagnostics : List Diagnostic := []

namespace CommandResult

def failed (file : String) (error : SymbolError) : CommandResult where
  output := ""
  diagnostics := error.diagnostics file

def hasErrors (result : CommandResult) : Bool := !result.diagnostics.isEmpty

end CommandResult

/-- Why a command came to no result. -/
inductive CommandError where
  | notOpened (file : String)
  | notRead (file : String) (error : TableError)
  | notLoaded (file : String) (error : SymbolError)
  | unknownFragment (file : String) (name : String)
  | noFragments (file : String)
  deriving DecidableEq, Repr

/-- The text of a failure, without its cause. -/
def CommandError.message : CommandError → String
  | .notOpened file => "failed to open " ++ file
  | .notRead file _ => "failed to read symbol table " ++ file
  | .notLoaded file _ => "failed to load declarations of " ++ file
  | .unknownFragment file name => "no package fragment `" ++ name ++ "` in " ++ file
  | .noFragments file => file ++ " has no package fragments"

/-- A loaded symbol table, and the file that it was read from. -/
structure Session where
  file : String
  table : SymbolTable
  store : Store
  module : LoadedModule

namespace Session

/-- The session of a file with the given text; without a text, the file could not be opened. -/
def load (file : String) (text : Option String) : Except CommandError Session :=
  match text with
  | none => .error (.notOpened file)
  | some text =>
    match SymbolTable.ofText text with
    | .error e => .error (.notRead file e)
    | .ok table =>
      match loadAll table .empty with
      | .error e _ => .error (.notLoaded file e)
      | .ok module store => .ok { file, table, store, module }

/-- The package fragment called `name`, or the first one if no name is given. -/
def fragment (session : Session) (name : Option String) :
    Except CommandError (String × LoadedFragment) :=
  match name with
  | some name =>
    match session.module.fragments.get? name with
    | some fragment => .ok (name, fragment)
    | none => .error (.unknownFragment session.file name)
  | none =>
    match session.module.fragments.entries.head? with
    | some entry => .ok entry
    | none => .error (.noFragments session.file)

end Session

/-! ## Resolving a record -/

/-- The signature of a declaration, followed by those of its members if it is a class. -/
def describeDeclaration (id : DeclId) : StoreM String := do
  let declaration ← StoreM.reading (·.resolve id)
  if declaration.class?.isNone then return declaration.render
  let members ← classMembers id
  let declarations ← StoreM.reading fun store => members.mapM store.resolve
  return "\n  ".intercalate (declaration.render :: declarations.map (·.render))

/-- Resolves the record at a place in the fragment, inside the declaration that a path leads to or
directly in the fragment, and describes it. -/
def resolveAndDescribe (table : SymbolTable) (fragment : LoadedFragment) (parent : Option String)
    (target : RecordRef) : StoreM String := do
  let owner ← match parent with
    | some path => findMemberPath fragment path
    | none => pure fragment.id
  let chain ← StoreM.reading (·.ownershipChain owner)
  let id ← resolveLocal table target chain
  describeDeclaration id

def resolveCommand (file : String) (text : Option String) (fragment : Option String)
    (parent : Option String) (record : UInt32) : Except CommandError CommandResult := do
  let session ← Session.load file text
  let (name, fragment) ← session.fragment fragment
  match resolveAndDescribe session.table fragment parent ⟨name, record⟩ session.store with
  | .ok output _ => return { output }
  | .error e _ => return .failed file e

/-! ## Listing effective members -/

def Store.ownerClassName? (store : Store) (declaration : Declaration) : Option String :=
  match declaration.container.bind store.get? with
  | some owner => if owner.class?.isSome then some owner.name else none
  | none => none

def Store.qualifiedSignature (store : Store) (id : DeclId) : String :=
  match store.get? id with
  | none => id.display
  | some declaration =>
    match store.ownerClassName? declaration with
    | some owner => owner ++ " :: " ++ declaration.render
    | none => declaration.render

def padRight (width : Nat) (text : String) : String :=
  text ++ String.ofList (List.replicate (width - text.length) ' ')

def OverrideSet.memberLines (set : OverrideSet) (store : Store) (member : EffectiveMember) :
    List String :=
  ("  " ++ padRight 9 member.origin.label ++ " " ++ store.qualifiedSignature member.id) ::
    (set.overriddenBy member.id).map fun overridden =>
      "            overrides " ++ store.qualifiedSignature overridden

def OverrideSet.describe (set : OverrideSet) (store : Store) : String :=
  "\n".intercalate (store.qualifiedSignature set.owner ::
    set.members.flatMap (set.memberLines store))

def synthesisAtPath (fragment : LoadedFragment) (path : String) :
    EffectiveM OverrideSynthesis := do
  let id ← EffectiveM.onStore (findMemberPath fragment path)
  effectiveSynthesis id

/-- Lists the effective members of a class of a file, and reports its conflicts. -/
def overridesCommand (file : String) (text : Option String) (fragment : Option String)
    (path : String) (options : SynthesisOptions) : Except CommandError CommandResult := do
  let session ← Session.load file text
  let (_, fragment) ← session.fragment fragment
  match synthesisAtPath fragment path ⟨session.store, { options }⟩ with
  | .error e _ => return .failed file e
  | .ok synthesis workspace =>
    return {
      output := synthesis.set.describe workspace.store
      diagnostics :=
        if synthesis.hasConflicts then
          (synthesis.conflictError workspace.store).diagnostics file
        else [] }

end ClassSymbols
