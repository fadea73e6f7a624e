import ClassSymbols.Ty.Basic

/-!
# Builtin classes

The classes that have a meaning of their own, all in the package `lang`.

## Main definitions

* `ClassId.any`, `ClassId.nothing`, `ClassId.unit`, … — their ids.
* `Ty.isNothing`, `Ty.isAny`, `Ty.isUnit` — types built on them.
-/

namespace ClassSymbols

namespace ClassId

def any : ClassId := ⟨"lang", "Any", false⟩

def nothing : ClassId := ⟨"lang", "Nothing", false⟩

def unit : ClassId := ⟨"lang", "Unit", false⟩

def int : ClassId := ⟨"lang", "Int", false⟩

def boolean : ClassId := ⟨"lang", "Boolean", false⟩

def string : ClassId := ⟨"lang", "String", false⟩

end ClassId

namespace Ty

def unit : Ty := ofClass .unit

def nothing : Ty := ofClass .nothing

def boolean : Ty := ofClass .boolean

def nullableAny : Ty := (ofClass .any).makeNullable

def isNothing (type : Ty) : Bool := type.classId? == some .nothing

def isAny (type : Ty) : Bool := type.classId? == some .any

def isUnit (type : Ty) : Bool := !type.nullable && type.classId? == some .unit

end Ty

end ClassSymbols
