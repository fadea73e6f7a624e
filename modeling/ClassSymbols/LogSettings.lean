import ClassSymbols.Text.Blank

/-!
# Log settings

Whether and how a run is logged, read from the environment. The first of two variables with a value
that is not blank gives the filter; without one, nothing is logged.

## Main definitions

* `LogSettings`, `LogFormat` — the settings.
* `LogSettings.ofEnvironment` — the settings of an environment.
-/

namespace ClassSymbols

inductive LogFormat where
  | text
  | tree
  | json
  deriving DecidableEq, Repr

/-- The format that a value names, in either case of its ASCII letters and with blanks around it;
any other value names plain text. -/
def LogFormat.ofText (value : String) : LogFormat :=
  let word := (Text.trim value.toList).map Char.toLower
  if word = "tree".toList then .tree
  else if word = "json".toList then .json
  else .text

def LogFormat.name : LogFormat → String
  | .text => "text"
  | .tree => "tree"
  | .json => "json"

/-- What is logged, and in which form. Nothing is logged without a filter. -/
structure LogSettings where
  filter : Option String := none
  format : LogFormat := .text
  deriving DecidableEq, Repr

namespace LogSettings

/-- The variables that can hold the filter, the one that wins first. -/
def filterVariables : List String := ["SYMRES_LOG", "RUST_LOG"]

def formatVariable : String := "SYMRES_LOG_FORMAT"

/-- The settings in an environment. A blank filter counts as none. -/
def ofEnvironment (lookup : String → Option String) : LogSettings where
  filter := (filterVariables.filterMap lookup).find? fun value => !Text.isAllBlank value.toList
  format := match lookup formatVariable with
    | some value => .ofText value
    | none => .text

def enabled (settings : LogSettings) : Bool := settings.filter.isSome

end LogSettings

end ClassSymbols
