import ClassSymbols.Dump.Keyword

/-!
# Modifiers of declarations

## Main definitions

* `Visibility`, `Modality`, `ClassKind` — what a declaration says about itself.
* `Variance` — how a type parameter or a type argument varies.
* `Visibility.isInheritable` — whether subclasses inherit a member.
-/

namespace ClassSymbols

/-- From where a declaration can be used. -/
inductive Visibility where
  | moduleWide
  | classOnly
  | subclasses
  | everywhere
  | instanceOnly
  | bodyOnly
  deriving DecidableEq, Repr

instance : Inhabited Visibility := ⟨.everywhere⟩

instance : Keyword Visibility where
  all := [.moduleWide, .classOnly, .subclasses, .everywhere, .instanceOnly, .bodyOnly]
  text
    | .moduleWide => "internal"
    | .classOnly => "private"
    | .subclasses => "protected"
    | .everywhere => "public"
    | .instanceOnly => "private_to_this"
    | .bodyOnly => "local"

/-- Whether a member with this visibility is inherited by subclasses. -/
def Visibility.isInheritable : Visibility → Bool
  | .classOnly | .instanceOnly | .bodyOnly => false
  | .moduleWide | .subclasses | .everywhere => true

/-- Whether a declaration can be, must be or cannot be overridden or extended. -/
inductive Modality where
  | final
  | extensible
  | abstract
  | sealed
  deriving DecidableEq, Repr

instance : Inhabited Modality := ⟨.final⟩

instance : Keyword Modality where
  all := [.final, .extensible, .abstract, .sealed]
  text
    | .final => "final"
    | .extensible => "open"
    | .abstract => "abstract"
    | .sealed => "sealed"

/-- What kind of class a class declaration declares. -/
inductive ClassKind where
  | plain
  | interface
  | enumClass
  | enumEntry
  | annotationClass
  | object
  | companion
  deriving DecidableEq, Repr

instance : Inhabited ClassKind := ⟨.plain⟩

instance : Keyword ClassKind where
  all := [.plain, .interface, .enumClass, .enumEntry, .annotationClass, .object, .companion]
  text
    | .plain => "class"
    | .interface => "interface"
    | .enumClass => "enum_class"
    | .enumEntry => "enum_entry"
    | .annotationClass => "annotation_class"
    | .object => "object"
    | .companion => "companion_object"

/-- How a type parameter or a type argument varies. -/
inductive Variance where
  | contravariant
  | covariant
  | invariant
  deriving DecidableEq, Repr

instance : Inhabited Variance := ⟨.invariant⟩

instance : Keyword Variance where
  all := [.contravariant, .covariant, .invariant]
  text
    | .contravariant => "in"
    | .covariant => "out"
    | .invariant => "invariant"

end ClassSymbols
