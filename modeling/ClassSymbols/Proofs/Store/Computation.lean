import ClassSymbols.Proofs.Data.Sequence
import ClassSymbols.Store.Basic

/-!
# Computations on stores

What the basic computations on a store give, and the store that they leave.

## Main definitions

* `Store.after` — the store that a computation leaves.
-/

namespace ClassSymbols

variable {s s' : Store} {α β : Type}

theorem gives_reading_iff {f : Store → Except SymbolError α} {r : Except SymbolError α} :
    Gives (StoreM.reading f) s r s' ↔ r = f s ∧ s' = s := by
  cases h : f s <;> cases r <;> simp [Gives, StoreM.reading, h, eq_comm]

theorem gives_ofExcept_iff {result r : Except SymbolError α} :
    Gives (StoreM.ofExcept result) s r s' ↔ r = result ∧ s' = s := gives_reading_iff

/-- A sequence that starts by reading the store fails with that, or goes on from what was read. -/
theorem gives_reading_bind_iff {g : Store → Except SymbolError α} {f : α → StoreM β}
    {r : Except SymbolError β} :
    Gives (StoreM.reading g >>= f) s r s' ↔
      (∃ e, g s = .error e ∧ r = .error e ∧ s' = s) ∨ ∃ a, g s = .ok a ∧ Gives (f a) s r s' := by
  simp only [gives_bind_iff, gives_reading_iff]
  grind

theorem gives_ofExcept_bind_iff {result : Except SymbolError α} {f : α → StoreM β}
    {r : Except SymbolError β} :
    Gives (StoreM.ofExcept result >>= f) s r s' ↔
      (∃ e, result = .error e ∧ r = .error e ∧ s' = s) ∨ ∃ a, result = .ok a ∧ Gives (f a) s r s' :=
  gives_reading_bind_iff

theorem gives_reserve_bind_iff {f : DeclId → StoreM β} {r : Except SymbolError β} :
    Gives (StoreM.reserve >>= f) s r s' ↔ Gives (f s.next) s.reserve r s' := by
  cases r <;> exact .rfl

theorem gives_insert_iff {declaration : Declaration} {r : Except SymbolError DeclId} :
    Gives (StoreM.insert declaration) s r s' ↔
      r = .ok declaration.id ∧ s' = s.insert declaration := by
  cases r <;> simp [Gives, StoreM.insert, eq_comm]

theorem gives_insertAll_iff {declarations : List Declaration}
    {r : Except SymbolError (List DeclId)} :
    Gives (StoreM.insertAll declarations) s r s' ↔
      r = .ok (declarations.map (·.id)) ∧ s' = s.insertAll declarations := by
  cases r <;> simp [Gives, StoreM.insertAll, eq_comm]

theorem gives_modify_iff {f : Store → Store} {r : Except SymbolError PUnit} :
    Gives (modify f : StoreM PUnit) s r s' ↔ r = .ok ⟨⟩ ∧ s' = f s := by
  have changed : (modify f : StoreM PUnit) s = .ok ⟨⟩ (f s) := rfl
  cases r <;> simp [Gives, changed, eq_comm]

def Store.after (s : Store) (action : StoreM α) : Store :=
  match action s with
  | .ok _ s' => s'
  | .error _ s' => s'

theorem Store.exists_gives_after (s : Store) (action : StoreM α) :
    ∃ r, Gives action s r (s.after action) := by
  unfold after
  cases h : action s with
  | ok a s' => exact ⟨.ok a, gives_ok_iff.2 h⟩
  | error e s' => exact ⟨.error e, gives_error_iff.2 h⟩

end ClassSymbols
