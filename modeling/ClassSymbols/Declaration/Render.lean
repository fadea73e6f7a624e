import ClassSymbols.Declaration.Basic

/-!
# Declarations as text

One line that shows the signature of a declaration, such as `fun foo(x: lang/Int): lang/Unit`.

## Main definitions

* `Declaration.render` — the line.
-/

namespace ClassSymbols

/-- The text of a type parameter. A bound is shown if it is the only one. -/
def TypeParameter.render (parameter : TypeParameter) : String :=
  (if parameter.reified then "reified " else "") ++ parameter.name ++
    match parameter.upperBounds with
    | [bound] => " : " ++ bound.display
    | _ => ""

/-- The texts of type parameters between angle brackets; nothing for none. -/
def renderTypeParameters (parameters : List TypeParameter) : String :=
  if parameters.isEmpty then ""
  else "<" ++ ", ".intercalate (parameters.map (·.render)) ++ ">"

/-- The texts of type parameters with a blank after them; nothing for none. -/
def renderTypeParametersBefore (parameters : List TypeParameter) : String :=
  if parameters.isEmpty then "" else renderTypeParameters parameters ++ " "

def ValueParameter.render (parameter : ValueParameter) : String :=
  (if parameter.varargElement.isSome then "vararg " else "") ++
    parameter.name ++ ": " ++ parameter.type.display

def renderValueParameters (parameters : List ValueParameter) : String :=
  "(" ++ ", ".intercalate (parameters.map (·.render)) ++ ")"

/-- The text of a receiver type with a point after it; nothing for none. -/
def renderReceiver : Option Ty → String
  | some receiver => receiver.display ++ "."
  | none => ""

/-- The word for a mutable or an immutable variable, with a blank after it. -/
def renderMutability (isVar : Bool) : String := if isVar then "var " else "val "

def Declaration.render (declaration : Declaration) : String :=
  let name := declaration.name
  match declaration.kind with
  | .module => "module <" ++ name ++ ">"
  | .package data => "package " ++ data.qualifiedName
  | .classifier data =>
    "class " ++ data.classId.display ++ renderTypeParameters data.typeParameters ++
      if data.supertypes.isEmpty then ""
      else " : " ++ ", ".intercalate (data.supertypes.map (·.display))
  | .function data =>
    "fun " ++ renderTypeParametersBefore data.typeParameters ++ renderReceiver data.receiver ++
      name ++ renderValueParameters data.valueParameters ++ ": " ++ data.returnType.display
  | .constructor data =>
    (if data.isPrimary then "" else "secondary ") ++ "constructor" ++
      renderValueParameters data.valueParameters ++ ": " ++ data.returnType.display
  | .property data =>
    renderMutability data.isVar ++ renderTypeParametersBefore data.typeParameters ++
      renderReceiver data.receiver ++ name ++ ": " ++ data.type.display
  | .localVariable data =>
    renderMutability data.isVar ++ name ++ ": " ++ data.type.display ++
      if data.isDelegated then " by <delegate>" else ""
  | .holder typeParameters => "scope " ++ renderTypeParametersBefore typeParameters ++ name

end ClassSymbols
