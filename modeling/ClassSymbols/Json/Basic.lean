/-!
# JSON values

A value keeps what decoders can tell apart: the fields of an object in order, repeated names
included, and whole numbers apart from numbers with a fraction or an exponent.

## Main definitions

* `Json` — the values.
* `Json.nesting` — how many arrays and objects lie inside one another.
* `Json.keepLast` — the value in which the last of several fields of one name wins.
* `Json.field?`, `Json.nat?`, `Json.text?`, … — the parts of a value.
-/

namespace ClassSymbols

/-- A JSON value.

`unreadable` stands for a string with an escape that names half of a surrogate pair, and for an
object with such a name: it can be skipped, and no decoder accepts it. -/
inductive Json where
  | null
  | bool (value : Bool)
  | integer (value : Int)
  | decimal (token : String)
  | string (value : String)
  | array (items : List Json)
  | object (fields : List (String × Json))
  | unreadable
  deriving Inhabited

namespace Json

def ofNat (n : Nat) : Json := .integer n

mutual
/-- The greatest number of arrays and objects that lie inside one another in a value. -/
def nesting : Json → Nat
  | .array items => nestingOfItems items + 1
  | .object fields => nestingOfFields fields + 1
  | _ => 0

def nestingOfItems : List Json → Nat
  | [] => 0
  | item :: rest => max (nesting item) (nestingOfItems rest)

def nestingOfFields : List (String × Json) → Nat
  | [] => 0
  | (_, value) :: rest => max (nesting value) (nestingOfFields rest)
end

mutual
/-- The value in which only the last of several fields of one name is left, at every depth. -/
def keepLast : Json → Json
  | .array items => .array (keepLastItems items)
  | .object fields => .object (keepLastFields fields)
  | json => json

/-- `keepLast` on each item of an array. -/
def keepLastItems : List Json → List Json
  | [] => []
  | item :: rest => keepLast item :: keepLastItems rest

/-- `keepLast` on the fields of an object, dropping a field whose name comes again. -/
def keepLastFields : List (String × Json) → List (String × Json)
  | [] => []
  | (name, value) :: rest =>
    if rest.any (·.1 == name) then keepLastFields rest
    else (name, keepLast value) :: keepLastFields rest
end

/-! ## Parts of values -/

/-- The value of the last field called `name` of an object, unless it is `null`. -/
def field? (json : Json) (name : String) : Option Json :=
  match json with
  | .object fields =>
    match fields.reverse.find? (·.1 == name) with
    | some (_, .null) | none => none
    | some (_, value) => some value
  | _ => none

def bool? : Json → Option Bool
  | .bool value => some value
  | _ => none

def int? : Json → Option Int
  | .integer value => some value
  | _ => none

/-- A whole number that is not negative. -/
def nat? : Json → Option Nat
  | .integer (.ofNat value) => some value
  | _ => none

def text? : Json → Option String
  | .string value => some value
  | _ => none

def items? : Json → Option (List Json)
  | .array items => some items
  | _ => none

end Json

end ClassSymbols
