/-!
# Message templates

A template holds numbered places `\x7b0\x7d`, `\x7b1\x7d`, … . The arguments are put in one after
the other: every occurrence of place `i`, in the text as the arguments before it left it, is
replaced by argument `i`.

## Main definitions

* `Text.replaceAll` — the replacement of one piece of text by another.
* `formatMessage` — a template with its arguments.
-/

namespace ClassSymbols

/-- The text in which the occurrences of `piece`, found from left to right without overlaps, are
replaced by `replacement`. The number counts the characters of an occurrence that are left to be
passed over. -/
def Text.replaceFrom (piece replacement : List Char) : Nat → List Char → List Char
  | _, [] => []
  | n + 1, _ :: rest => replaceFrom piece replacement n rest
  | 0, c :: rest =>
    if piece.isPrefixOf (c :: rest) then
      replacement ++ replaceFrom piece replacement (piece.length - 1) rest
    else c :: replaceFrom piece replacement 0 rest

/-- The text in which the occurrences of a piece that is not empty, found from left to right without
overlaps, are replaced. -/
def Text.replaceAll (piece replacement text : List Char) : List Char :=
  Text.replaceFrom piece replacement 0 text

def placeholder (i : Nat) : List Char := '\x7b' :: (toString i).toList ++ ['\x7d']

/-- The text in which the arguments, numbered from `i` on, replace their places one after the
other. -/
def fillFrom (i : Nat) (text : List Char) : List String → List Char
  | [] => text
  | argument :: rest =>
    fillFrom (i + 1) (Text.replaceAll (placeholder i) argument.toList text) rest

def formatMessage (template : String) (arguments : List String) : String :=
  String.ofList (fillFrom 0 template.toList arguments)

end ClassSymbols
