import ClassSymbols.Json.Basic
import ClassSymbols.Text.Hex

/-!
# Reading JSON text

A text is read if it is one JSON document, with blanks around it allowed. Blanks are the space, the
tab, the line feed and the carriage return. Strings hold no raw control characters; a half of a
surrogate pair that stands alone makes the string `unreadable` and not the whole text.

Every function takes the characters that are left and gives back those that it leaves. Nested
values are read with a bound on the number of steps, which `Json.parse?` takes from the text.

## Main definitions

* `Json.parse?` — the value of a text.
-/

namespace ClassSymbols.Json

namespace Reader

/-- The blanks that may stand between the tokens of a text. -/
def isSpace (c : Char) : Bool := c == ' ' || c == '\n' || c == '\t' || c == '\r'

def skipSpace (cs : List Char) : List Char := cs.dropWhile isSpace

/-! ## Numbers -/

def digitsValue (digits : List Char) : Nat :=
  digits.foldl (fun n c => 10 * n + (c.toNat - '0'.toNat)) 0

/-- At least one digit, and what follows them. -/
def digits? (cs : List Char) : Option (List Char × List Char) :=
  match cs.takeWhile Char.isDigit with
  | [] => none
  | digits => some (digits, cs.dropWhile Char.isDigit)

/-- A fraction, if there is a point. -/
def fraction? : List Char → Option (List Char × List Char)
  | '.' :: cs => (digits? cs).map fun (digits, rest) => ('.' :: digits, rest)
  | cs => some ([], cs)

/-- An exponent, if there is an `e` or an `E`. -/
def exponent? : List Char → Option (List Char × List Char)
  | c :: cs =>
    if c == 'e' || c == 'E' then
      match cs with
      | '+' :: rest => (digits? rest).map fun (digits, rest) => (c :: '+' :: digits, rest)
      | '-' :: rest => (digits? rest).map fun (digits, rest) => (c :: '-' :: digits, rest)
      | rest => (digits? rest).map fun (digits, rest) => (c :: digits, rest)
    else some ([], c :: cs)
  | [] => some ([], [])

/-- A number: a sign, digits without a leading zero, a fraction, an exponent. A whole number is an
`integer`, except for a negative zero. -/
def number? (cs : List Char) : Option (Json × List Char) := do
  let (negative, cs) := match cs with
    | '-' :: rest => (true, rest)
    | rest => (false, rest)
  let (whole, cs) ← digits? cs
  if whole.length > 1 && whole.head? == some '0' then none else
  let (fraction, cs) ← fraction? cs
  let (exponent, cs) ← exponent? cs
  let sign := if negative then ['-'] else []
  if fraction.isEmpty && exponent.isEmpty && !(negative && digitsValue whole == 0) then
    let n : Int := digitsValue whole
    some (.integer (if negative then -n else n), cs)
  else
    some (.decimal (String.ofList (sign ++ whole ++ fraction ++ exponent)), cs)

/-! ## Strings -/

/-- The number that the next four characters spell in hexadecimal. -/
def hex4? : List Char → Option (Nat × List Char)
  | a :: b :: c :: d :: rest => do
    let a ← Text.hexDigit? a
    let b ← Text.hexDigit? b
    let c ← Text.hexDigit? c
    let d ← Text.hexDigit? d
    some (((a * 16 + b) * 16 + c) * 16 + d, rest)
  | _ => none

/-- The character that a letter after a backslash stands for. -/
def simpleEscape? : Char → Option Char
  | '"' => some '"'
  | '\\' => some '\\'
  | '/' => some '/'
  | 'b' => some '\x08'
  | 'f' => some '\x0c'
  | 'n' => some '\n'
  | 'r' => some '\r'
  | 't' => some '\t'
  | _ => none

/-- The character of an escape `\u`, after its first four digits: `none` inside if it is half of a
surrogate pair and the other half does not follow. -/
def unicodeEscape? (unit : Nat) (cs : List Char) : Option (Option Char × List Char) :=
  if 0xD800 ≤ unit && unit < 0xDC00 then
    match cs with
    | '\\' :: 'u' :: rest =>
      match hex4? rest with
      | none => none
      | some (low, after) =>
        if 0xDC00 ≤ low && low < 0xE000 then
          some (some (Char.ofNat (0x10000 + (unit - 0xD800) * 0x400 + (low - 0xDC00))), after)
        else some (none, cs)
    | _ => some (none, cs)
  else if 0xDC00 ≤ unit && unit < 0xE000 then some (none, cs)
  else some (some (Char.ofNat unit), cs)

/-- The characters of a string after its opening quote, in at most one step for each of the
characters `bound`. The first part is `none` when an escape names half of a surrogate pair. -/
def stringBody? (bound cs : List Char) : Option (Option (List Char) × List Char) :=
  match bound, cs with
  | _, '"' :: rest => some (some [], rest)
  | _ :: bound, '\\' :: 'u' :: rest => do
    let (unit, rest) ← hex4? rest
    let (c, rest) ← unicodeEscape? unit rest
    let (body, rest) ← stringBody? bound rest
    some ((do some ((← c) :: (← body))), rest)
  | _ :: bound, '\\' :: c :: rest => do
    let c ← simpleEscape? c
    let (body, rest) ← stringBody? bound rest
    some (body.map (c :: ·), rest)
  | _ :: bound, c :: rest =>
    if c.toNat < 0x20 || c == '\\' then none
    else do
      let (body, rest) ← stringBody? bound rest
      some (body.map (c :: ·), rest)
  | _, _ => none

/-- A string, quotes included; `none` inside for an unreadable one. The text itself bounds the
steps: its length would have to be counted anew for each of its strings. -/
def string? : List Char → Option (Option String × List Char)
  | '"' :: cs => (stringBody? cs cs).map fun (body, rest) => (body.map String.ofList, rest)
  | _ => none

/-! ## Values -/

/-- The rest of a text after a word that it starts with. -/
def word? (word cs : List Char) : Option (List Char) :=
  if word.isPrefixOf cs then some (cs.drop word.length) else none

/-- The object of fields of which some may have an unreadable name. -/
def ofFields (fields : List (Option String × Json)) : Json :=
  match fields.mapM (fun (name, value) => name.map (·, value)) with
  | some fields => .object fields
  | none => .unreadable

mutual
def value? : Nat → List Char → Option (Json × List Char)
  | 0, _ => none
  | n + 1, cs =>
    match skipSpace cs with
    | '{' :: rest =>
      match skipSpace rest with
      | '}' :: rest => some (.object [], rest)
      | rest => (fields? n rest).map fun (fields, rest) => (ofFields fields, rest)
    | '[' :: rest =>
      match skipSpace rest with
      | ']' :: rest => some (.array [], rest)
      | rest => (items? n rest).map fun (items, rest) => (.array items, rest)
    | '"' :: rest =>
      (string? ('"' :: rest)).map fun (body, rest) =>
        ((match body with
          | some text => .string text
          | none => .unreadable), rest)
    | 'n' :: rest => (word? "ull".toList rest).map fun rest => (.null, rest)
    | 't' :: rest => (word? "rue".toList rest).map fun rest => (.bool true, rest)
    | 'f' :: rest => (word? "alse".toList rest).map fun rest => (.bool false, rest)
    | rest => number? rest

/-- The items of an array up to its end: at least one. -/
def items? : Nat → List Char → Option (List Json × List Char)
  | 0, _ => none
  | n + 1, cs => do
    let (item, rest) ← value? n cs
    match skipSpace rest with
    | ']' :: rest => some ([item], rest)
    | ',' :: rest => do
      let (items, rest) ← items? n rest
      some (item :: items, rest)
    | _ => none

/-- The fields of an object up to its end: at least one. -/
def fields? : Nat → List Char → Option (List (Option String × Json) × List Char)
  | 0, _ => none
  | n + 1, cs => do
    let (name, rest) ← string? (skipSpace cs)
    match skipSpace rest with
    | ':' :: rest => do
      let (value, rest) ← value? n rest
      match skipSpace rest with
      | '}' :: rest => some ([(name, value)], rest)
      | ',' :: rest => do
        let (fields, rest) ← fields? n rest
        some ((name, value) :: fields, rest)
      | _ => none
    | _ => none
end

end Reader

/-- The value of a text that is one JSON document. Of two steps in a row into nested values one
takes a character, which bounds their number. -/
def parse? (text : String) : Option Json :=
  let cs := text.toList
  match Reader.value? (2 * cs.length + 2) cs with
  | some (json, rest) => if (Reader.skipSpace rest).isEmpty then some json else none
  | none => none

end ClassSymbols.Json
