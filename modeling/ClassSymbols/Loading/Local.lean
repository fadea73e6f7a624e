import ClassSymbols.Loading.Members
import ClassSymbols.Scope.Tower
import ClassSymbols.Store.Ownership
import ClassSymbols.Table.SymbolTable

/-!
# Local declarations

A local declaration has a record of its own and no entry at the top level. It is read in the context
of the declaration that it is declared in, which is rebuilt from that declaration's chain.

## Main definitions

* `Tower.load` — the declaration of a record inside the last declaration of a tower.
* `Tower.readInlineType` — a type reference that stands alone.
* `resolveLocal` — the local record at a place, read and stored.
-/

namespace ClassSymbols

namespace Tower

/-- The declaration of a record under a fresh id. The record of a property that is marked as a
variable declares a local variable. -/
def load (tower : Tower) (record : LocalRecord) : StoreM Declaration := do
  let site := tower.context.site (← get)
  match record with
  | .classRecord record => site.loadClass record
  | .function record => site.loadFunction record
  | .constructor record => site.loadConstructor record
  | .property record => do
    let declaration ← site.loadProperty record
    return if record.usedAsVariable then declaration.asVariable else declaration

def register (tower : Tower) (record : LocalRecord) : StoreM DeclId := do
  StoreM.insert (← tower.load record)

/-- The type that a reference stands for inside the last declaration of the chain. -/
def readInlineType (tower : Tower) (type : TypeRef) : Except SymbolError Ty :=
  (tower.context.readType type).mapError (·.within "<inline type>" tower.path)

end Tower

/-- The tower of a chain, which must lead through the package fragment called `fragment`, and the
record at a place in that fragment. -/
def localRecord (table : SymbolTable) (target : RecordRef) (chain : List Declaration) :
    Except SymbolError (Tower × LocalRecord) := do
  let tower ← Tower.build chain
  if tower.fragment.name != target.fragment then
    throw (.malformedChain ("record of package `" ++ target.fragment ++
      "` requested under package `" ++ tower.fragment.name ++ "`"))
  let record ← (table.record target).mapError .ofTableError
  return (tower, record)

/-- Reads the record at a place as a declaration inside the last declaration of a chain, and stores
it. -/
def resolveLocal (table : SymbolTable) (target : RecordRef) (chain : List Declaration) :
    StoreM DeclId := do
  let (tower, record) ← StoreM.ofExcept (localRecord table target chain)
  tower.register record

end ClassSymbols
