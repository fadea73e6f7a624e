import ClassSymbols.Session

/-!
# Command lines

The words after the name of the program: a command, the file that it is about, and options. An
option with a value is written `--name value` or `--name=value`, a switch is written `--name`, and
options may stand anywhere.

## Main definitions

* `Invocation` — what the program is asked to do.
* `Invocation.ofWords` — reading a command line.
* `Invocation.run` — what the command comes to on the text of its file.
-/

namespace ClassSymbols

/-- A command with its arguments. -/
inductive Command where
  | resolve (record : UInt32) (parent : Option String)
  | overrides (path : String) (options : SynthesisOptions)

/-- What the program is asked to do. With `json`, diagnostics are written for programs. -/
structure Invocation where
  command : Command
  file : String
  fragment : Option String := none
  json : Bool := false
  color : Bool := true

/-! ## Sorting the words -/

/-- The words of a command line by their roles. -/
structure SortedWords where
  positional : List String := []
  values : List (String × String) := []
  switches : List String := []

def valueNames : List String := ["record", "parent", "fragment", "class", "relation"]

def switchNames : List String := ["json", "no-color", "no-materialize"]

/-- The name that a word gives an option, and its value if the word has one. -/
def optionOf? (word : String) : Option (String × Option String) :=
  match word.toList with
  | '-' :: '-' :: rest =>
    match Text.cut '=' rest with
    | (name, []) => some (String.ofList name, none)
    | (name, _ :: _) =>
      some (String.ofList name, some (String.ofList (rest.drop (name.length + 1))))
  | _ => none

/-- Sorts the words of a command line. -/
def sortWords : List String → Except String SortedWords
  | [] => .ok {}
  | word :: rest =>
    match optionOf? word with
    | none => do
      let sorted ← sortWords rest
      return { sorted with positional := word :: sorted.positional }
    | some (name, some value) => do
      if !valueNames.contains name then throw ("unexpected argument '" ++ word ++ "'")
      let sorted ← sortWords rest
      return { sorted with values := (name, value) :: sorted.values }
    | some (name, none) =>
      if switchNames.contains name then do
        let sorted ← sortWords rest
        return { sorted with switches := name :: sorted.switches }
      else if valueNames.contains name then
        match rest with
        | [] => .error ("a value is required for '" ++ word ++ "'")
        | value :: rest => do
          let sorted ← sortWords rest
          return { sorted with values := (name, value) :: sorted.values }
      else .error ("unexpected argument '" ++ word ++ "'")

namespace SortedWords

def value? (sorted : SortedWords) (name : String) : Option String :=
  (sorted.values.find? (·.1 == name)).map Prod.snd

def value (sorted : SortedWords) (name : String) : Except String String :=
  match sorted.value? name with
  | some value => .ok value
  | none => .error ("the option '--" ++ name ++ "' is required")

def has (sorted : SortedWords) (name : String) : Bool := sorted.switches.contains name

end SortedWords

/-! ## Reading the arguments -/

def recordNumber (word : String) : Except String UInt32 :=
  match Json.Reader.digits? word.toList with
  | some (digits, []) =>
    let n := Json.Reader.digitsValue digits
    if n < UInt32.size then .ok (UInt32.ofNat n)
      else .error ("'" ++ word ++ "' is too large a number")
  | _ => .error ("'" ++ word ++ "' is not a number")

def relationNamed (word : String) : Except String RelationKind :=
  match Keyword.ofText? word with
  | some relation => .ok relation
  | none => .error ("'" ++ word ++ "' is not one of exact, structural and hierarchy")

def SortedWords.synthesisOptions (sorted : SortedWords) : Except String SynthesisOptions := do
  let kind ← match sorted.value? "relation" with
    | some word => relationNamed word
    | none => .ok default
  return { relation := kind.relation, materialize := !sorted.has "no-materialize" }

def SortedWords.command (sorted : SortedWords) (name : String) : Except String Command := do
  if name = "resolve" then
    return .resolve (← recordNumber (← sorted.value "record")) (sorted.value? "parent")
  else if name = "overrides" then
    return .overrides (← sorted.value "class") (← sorted.synthesisOptions)
  else throw ("unrecognized command '" ++ name ++ "'")

namespace Invocation

def ofWords (words : List String) : Except String Invocation := do
  let sorted ← sortWords words
  match sorted.positional with
  | [name, file] =>
    return {
      command := ← sorted.command name
      file
      fragment := sorted.value? "fragment"
      json := sorted.has "json"
      color := !sorted.has "no-color" && !sorted.has "json" }
  | _ => throw "a command and a file are required"

/-- What the command comes to on the text of its file; without a text, the file could not be
opened. -/
def run (invocation : Invocation) (text : Option String) : Except CommandError CommandResult :=
  match invocation.command with
  | .resolve record parent =>
    resolveCommand invocation.file text invocation.fragment parent record
  | .overrides path options =>
    overridesCommand invocation.file text invocation.fragment path options

/-- The text of diagnostics, in colour only if a terminal shows it. -/
def report (invocation : Invocation) (terminal : Bool) (diagnostics : List Diagnostic) : String :=
  if invocation.json then Report.renderJson diagnostics
  else Report.render (invocation.color && terminal) diagnostics

end Invocation

def usage : String :=
  "\n".intercalate [
    "usage: resolve FILE --record N [--parent PATH] [--fragment NAME]",
    "       overrides FILE --class PATH [--fragment NAME] [--no-materialize]",
    "                 [--relation exact|structural|hierarchy]",
    "common options: --json, --no-color"]

/-- The text of a failure, followed by its cause if it has one. -/
def CommandError.describe (error : CommandError) : String :=
  let cause := match error with
    | .notRead _ cause => some cause.message
    | .notLoaded _ cause => some cause.message
    | _ => none
  "Error: " ++ error.message ++
    match cause with
    | some cause => "\n\nCaused by:\n    " ++ cause
    | none => ""

end ClassSymbols
