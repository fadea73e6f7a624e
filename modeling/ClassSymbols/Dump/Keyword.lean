/-!
# Closed vocabularies

A type with finitely many values, each written as a word of its own.

## Main definitions

* `Keyword` — the vocabularies, with the law that reading a word undoes writing it.
* `Keyword.ofText?` — reading a word.
-/

namespace ClassSymbols

/-- A type whose values are listed in `all` and written as distinct words. -/
class Keyword (α : Type) where
  all : List α
  text : α → String
  find?_text : ∀ a, all.find? (fun b => text b == text a) = some a := by intro a; cases a <;> rfl

namespace Keyword

variable {α : Type} [Keyword α]

def ofText? (word : String) : Option α := (all : List α).find? (fun b => text b == word)

@[simp] theorem ofText?_text (a : α) : ofText? (text a) = some a := find?_text a

end Keyword

end ClassSymbols
