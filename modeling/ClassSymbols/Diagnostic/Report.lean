import ClassSymbols.Diagnostic.Basic
import ClassSymbols.Json.Writer

/-!
# Reports

Diagnostics are written one per line, followed by the lines of their related information, or as one
JSON object per line. In colour, the category, the number and the files of related information are
set in a style that is switched off after them.

## Main definitions

* `Report.render` — the lines for readers.
* `Report.renderJson` — the lines for programs.
* `Diagnostic.encode` — the JSON value of a diagnostic.
-/

namespace ClassSymbols

def RelatedInformation.encode (related : RelatedInformation) : Json :=
  .object [("file", .string related.file), ("start", .ofNat related.start),
    ("length", .ofNat related.length), ("message_text", .string related.message),
    ("category", .string (Keyword.text related.category)), ("code", .ofNat related.code)]

/-- The JSON value of a diagnostic. Related information is left out when there is none. -/
def Diagnostic.encode (diagnostic : Diagnostic) : Json :=
  .object <|
    [("file", .string diagnostic.file), ("start", .ofNat diagnostic.start),
      ("length", .ofNat diagnostic.length), ("message_text", .string diagnostic.message),
      ("category", .string (Keyword.text diagnostic.category)), ("code", .ofNat diagnostic.code)] ++
    if diagnostic.related.isEmpty then []
    else [("related_information", .array (diagnostic.related.map (·.encode)))]

namespace Report

/-! ## Styles -/

/-- The codes that switch a style on: bold colours for categories, plain ones for the rest. -/
inductive Style where
  | boldRed | boldYellow | boldBlue | boldCyan | cyan | brightBlue
  deriving DecidableEq, Repr

def Style.start (style : Style) : List Char :=
  let code := match style with
    | .boldRed => "1;31"
    | .boldYellow => "1;33"
    | .boldBlue => "1;34"
    | .boldCyan => "1;36"
    | .cyan => "36"
    | .brightBlue => "94"
  '\x1b' :: '[' :: code.toList ++ ['m']

def reset : List Char := ['\x1b', '[', '0', 'm']

/-- A text in a style. Where the text itself switches styles off, the style is switched on again. -/
def Style.apply (style : Style) (text : String) : String :=
  String.ofList (style.start ++
    Text.replaceAll reset (reset ++ style.start) text.toList ++ reset)

/-- The text in a style, or as it is without colour. -/
def styled (color : Bool) (style : Style) (text : String) : String :=
  if color then style.apply text else text

/-! ## Lines -/

def categoryLabel : Category → String
  | .error => "error"
  | .warning => "warning"
  | .suggestion => "suggestion"
  | .message => "message"

def categoryStyle : Category → Style
  | .error => .boldRed
  | .warning => .boldYellow
  | .suggestion => .boldBlue
  | .message => .boldCyan

/-- The number of a diagnostic, with a blank before it; number zero is not written. -/
def codeLabel (color : Bool) (code : Nat) : String :=
  if code = 0 then "" else " " ++ styled color .brightBlue ("SR" ++ toString code)

def relatedLine (color : Bool) (related : RelatedInformation) : String :=
  "  " ++ styled color .cyan related.file ++ ": " ++ related.message

def diagnosticLines (color : Bool) (diagnostic : Diagnostic) : List String :=
  let file := if diagnostic.file.isEmpty then "<unknown>" else diagnostic.file
  let category := styled color (categoryStyle diagnostic.category)
    (categoryLabel diagnostic.category)
  (file ++ " - " ++ category ++ codeLabel color diagnostic.code ++ ": " ++ diagnostic.message) ::
    diagnostic.related.map (relatedLine color)

def render (color : Bool) (diagnostics : List Diagnostic) : String :=
  "\n".intercalate (diagnostics.flatMap (diagnosticLines color))

/-- One JSON object per diagnostic, each on a line. -/
def renderJson (diagnostics : List Diagnostic) : String :=
  "\n".intercalate (diagnostics.map fun diagnostic => diagnostic.encode.render)

end Report

end ClassSymbols
