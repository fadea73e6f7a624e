import ClassSymbols.Text.Segments

/-!
# Class ids

A class is identified by its package, by its path of class names inside the package, and by whether
it is declared inside a body.

## Main definitions

* `ClassId` — the ids.
* `ClassId.nested`, `ClassId.outer?`, `ClassId.shortName` — moving along the path of class names.
* `ClassId.display` — the text `package/Outer.Inner`.
-/

namespace ClassSymbols

/-- The identity of a class. `relative` is the dotted path of class names inside the package. -/
structure ClassId where
  package : String
  relative : String
  isLocal : Bool := false
  deriving DecidableEq, Repr

namespace ClassId

def nested (id : ClassId) (name : String) : ClassId :=
  { id with relative := id.relative ++ "." ++ name }

/-- The last name of the class path. -/
def shortName (id : ClassId) : String := Text.lastSegment id.relative

/-- The id of the enclosing class, if this class is nested. -/
def outer? (id : ClassId) : Option ClassId :=
  (Text.outerSegments? id.relative).map fun outer => { id with relative := outer }

/-- The ids of the enclosing classes, innermost first. The path of class names has fewer names
than characters and one more, which bounds the steps. -/
def outers (id : ClassId) : List ClassId :=
  go id.relative.toList.length id
where
  go : Nat → ClassId → List ClassId
    | 0, _ => []
    | n + 1, id =>
      match id.outer? with
      | none => []
      | some outer => outer :: go n outer

/-- The text `package/Outer.Inner`. -/
def display (id : ClassId) : String := id.package ++ "/" ++ id.relative

/-- The text of a class id that also says whether the class is local. -/
def describe (id : ClassId) : String :=
  if id.isLocal then "local:" ++ id.display else id.display

end ClassId

end ClassSymbols
