/-!
# Declaration ids

Ids are given out one after the other, from 1 on and without end. A counter of 32 bits gives out the
same ids as long as there are fewer than 2 ^ 32 reservations, and starts again at 0 after that.

## Main definitions

* `DeclId` — the identity of a declaration inside one store.
* `DeclId.invalid`, `DeclId.first` — the id of no declaration, and the first one given out.
-/

namespace ClassSymbols

/-- The identity of a declaration inside one store. -/
structure DeclId where
  number : Nat
  deriving DecidableEq, Repr

namespace DeclId

/-- The id that no declaration is given. -/
def invalid : DeclId := ⟨0⟩

/-- The first id that a store gives out. -/
def first : DeclId := ⟨1⟩

instance : Inhabited DeclId := ⟨invalid⟩

def isValid (id : DeclId) : Bool := 1 ≤ id.number

/-- The id given out after this one. There is no last one, other than with 32 bits. -/
def next (id : DeclId) : DeclId := ⟨id.number + 1⟩

/-- The text `#7`. -/
def display (id : DeclId) : String := "#" ++ toString id.number

end DeclId

end ClassSymbols
