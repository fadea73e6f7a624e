import ClassSymbols.Json.Basic

/-!
# Decoding JSON values

A decoder is given the number of arrays and objects that it may still enter, one inside the other,
and answers `none` when a value does not have the form that it reads. Arrays and objects that no
decoder looks into do not count.

A record is read from an object or from an array. In an object, fields that the record does not have
are skipped and a field that it has may come once only; in an array the fields come in their order,
and those at the end may be missing.

## Main definitions

* `Json.Decoder` — the decoders.
* `Json.fields?` — the values of the fields of a record.
* `Json.Decoder.array`, `Json.Decoder.required`, `Json.Decoder.defaulted`, `Json.Decoder.optional`
  — decoders built from others.
-/

namespace ClassSymbols.Json

/-- Reads a value, entering at most the given number of nested arrays and objects. -/
abbrev Decoder (α : Type) := Nat → Json → Option α

/-- The values of the fields called `names`, `none` for a missing one. -/
def fields? (names : List String) : Json → Option (List (Option Json))
  | .object fields =>
    if names.any (fun name => (fields.filter (·.1 == name)).length > 1) then none
    else some (names.map fun name => (fields.find? (·.1 == name)).map Prod.snd)
  | .array items =>
    if items.length ≤ names.length then
      some (items.map some ++ List.replicate (names.length - items.length) none)
    else none
  | _ => none

def onlyField? : Json → Option (String × Json)
  | .object [field] => some field
  | _ => none

namespace Decoder

variable {α : Type}

def bool : Decoder Bool
  | _, .bool value => some value
  | _, _ => none

def string : Decoder String
  | _, .string text => some text
  | _, _ => none

def word : Decoder UInt32
  | _, .integer (.ofNat n) => if n < UInt32.size then some (UInt32.ofNat n) else none
  | _, _ => none

def array (item : Decoder α) : Decoder (List α)
  | 0, _ => none
  | n + 1, json => (items? json).bind (·.mapM (item n))

def required (value : Json → Option α) (json : Option Json) : Option α :=
  json.bind value

/-- A field that stands for `otherwise` when it is missing. -/
def defaulted (otherwise : α) (value : Json → Option α) : Option Json → Option α
  | none => some otherwise
  | some json => value json

/-- A field whose absence can also be written as `null`. -/
def optional (value : Json → Option α) : Option Json → Option (Option α)
  | none => some none
  | some .null => some none
  | some json => (value json).map some

end Decoder

end ClassSymbols.Json
