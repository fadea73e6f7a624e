/-!
# Texts in segments

A text is cut at every occurrence of a separator. There is always a first segment, so the
segments are a pair of the first one and the list of the others. Dotted names use `.`.

## Main definitions

* `Text.cut` — the segments of a text at a separator.
* `Text.dotted`, `Text.dottedSegments` — names joined by dots and cut at dots.
* `Text.lastSegment`, `Text.outerSegments?` — the last name of a dotted name, and what is before it.
-/

namespace ClassSymbols.Text

/-- The segments of a text at `separator`: the first one, and those after it. -/
def cut (separator : Char) : List Char → List Char × List (List Char)
  | [] => ([], [])
  | c :: cs =>
    let (first, others) := cut separator cs
    if c = separator then ([], first :: others) else (c :: first, others)

/-- The segments of a text at `separator`, as one list that is never empty. -/
def segments (separator : Char) (cs : List Char) : List (List Char) :=
  (cut separator cs).1 :: (cut separator cs).2

/-- Names joined by dots. -/
def dotted (names : List String) : String :=
  String.ofList (List.intercalate ['.'] (names.map String.toList))

def dottedSegments (name : String) : List String :=
  (segments '.' name.toList).map String.ofList

def lastSegment (name : String) : String :=
  (dottedSegments name).getLastD name

/-- A dotted name without its last name and the dot before it, if it has a dot. -/
def outerSegments? (name : String) : Option String :=
  match (dottedSegments name).dropLast with
  | [] => none
  | outer => some (dotted outer)

end ClassSymbols.Text
