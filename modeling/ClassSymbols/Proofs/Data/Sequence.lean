import Mathlib.Tactic.Common

/-!
# Computations that may fail

A computation on a state gives a result or an error, and leaves a state in either case. A sequence
fails with its first part, or goes on with the second part from what the first one leaves.

## Main definitions

* `Gives` — a result or an error of a computation, with the state that it leaves.

## Main statements

* `gives_bind_iff` — the results of a sequence.
* `bind_eq_ok_iff` — when a sequence succeeds.
-/

namespace ClassSymbols

variable {ε σ α β : Type} {s s' : σ}

/-- Whether a computation gives a result or an error, and leaves a state. -/
def Gives (x : EStateM ε σ α) (s : σ) : Except ε α → σ → Prop
  | .ok a, s' => x s = .ok a s'
  | .error e, s' => x s = .error e s'

theorem gives_ok_iff {x : EStateM ε σ α} {a : α} : Gives x s (.ok a) s' ↔ x s = .ok a s' := .rfl

theorem gives_error_iff {x : EStateM ε σ α} {e : ε} :
    Gives x s (.error e) s' ↔ x s = .error e s' := .rfl

/-- A computation gives one result, and leaves one state. -/
theorem Gives.unique {x : EStateM ε σ α} {r r' : Except ε α} {s'' : σ} (h : Gives x s r s')
    (h' : Gives x s r' s'') : r = r' ∧ s' = s'' := by
  unfold Gives at h h'
  cases r <;> cases r' <;> simp_all

theorem exists_gives (x : EStateM ε σ α) (s : σ) : ∃ r s', Gives x s r s' := by
  cases h : x s with
  | ok a s' => exact ⟨.ok a, s', h⟩
  | error e s' => exact ⟨.error e, s', h⟩

theorem gives_pure_iff {a : α} {r : Except ε α} :
    Gives (pure a : EStateM ε σ α) s r s' ↔ r = .ok a ∧ s' = s := by
  cases r <;> simp [Gives, pure, EStateM.pure, eq_comm]

theorem gives_throw_iff {e : ε} {r : Except ε α} :
    Gives (throw e : EStateM ε σ α) s r s' ↔ r = .error e ∧ s' = s := by
  have thrown : (throw e : EStateM ε σ α) s = .error e s := rfl
  cases r <;> simp [Gives, thrown, eq_comm]

theorem gives_get_iff {r : Except ε σ} :
    Gives (get : EStateM ε σ σ) s r s' ↔ r = .ok s ∧ s' = s := by
  have read : (get : EStateM ε σ σ) s = .ok s s := rfl
  cases r <;> simp [Gives, read, eq_comm]

/-- A sequence fails with its first part, or goes on from what that gives. -/
theorem gives_bind_iff {x : EStateM ε σ α} {f : α → EStateM ε σ β} {r : Except ε β} :
    Gives (x >>= f) s r s' ↔
      (∃ e, r = .error e ∧ Gives x s (.error e) s') ∨
      ∃ a s₁, Gives x s (.ok a) s₁ ∧ Gives (f a) s₁ r s' := by
  have unfolded : (x >>= f) s = match x s with
    | .ok a s₁ => f a s₁
    | .error e s₁ => .error e s₁ := rfl
  cases h : x s <;> cases r <;> simp [Gives, unfolded, h, eq_comm]

/-- A sequence that starts by looking at the state goes on with it. -/
theorem gives_get_bind_iff {f : σ → EStateM ε σ β} {r : Except ε β} :
    Gives (get >>= f) s r s' ↔ Gives (f s) s r s' := by
  cases r <;> exact .rfl

/-- A sequence that ends with a function of a result fails if there is no result. -/
theorem gives_bind_pure_iff {x : EStateM ε σ α} {f : α → β} {r : Except ε β} :
    Gives (do return f (← x)) s r s' ↔ ∃ r', Gives x s r' s' ∧ r = r'.map f := by
  rw [gives_bind_iff]
  constructor
  · rintro (⟨e, rfl, failed⟩ | ⟨a, s₁, found, done⟩)
    · exact ⟨.error e, failed, rfl⟩
    · obtain ⟨rfl, rfl⟩ := gives_pure_iff.1 done
      exact ⟨.ok a, found, rfl⟩
  · rintro ⟨e | a, found, rfl⟩
    · exact .inl ⟨e, rfl, found⟩
    · exact .inr ⟨a, s', found, gives_pure_iff.2 ⟨rfl, rfl⟩⟩

/-- A sequence succeeds if its first part does, and then the second one. -/
theorem bind_eq_ok_iff {x : EStateM ε σ α} {f : α → EStateM ε σ β} {b : β} :
    (x >>= f) s = .ok b s' ↔ ∃ a s₁, x s = .ok a s₁ ∧ f a s₁ = .ok b s' := by
  rw [← gives_ok_iff, gives_bind_iff]
  constructor
  · rintro (⟨_, e, -⟩ | ⟨a, s₁, first, later⟩)
    · cases e
    · exact ⟨a, s₁, gives_ok_iff.1 first, gives_ok_iff.1 later⟩
  · rintro ⟨a, s₁, first, later⟩
    exact .inr ⟨a, s₁, gives_ok_iff.2 first, gives_ok_iff.2 later⟩

/-- A sequence that ends with a function of a result succeeds if there is a result. -/
theorem bind_pure_eq_ok_iff {x : EStateM ε σ α} {f : α → β} {b : β} :
    (do return f (← x) : EStateM ε σ β) s = .ok b s' ↔ ∃ a, x s = .ok a s' ∧ f a = b := by
  rw [bind_eq_ok_iff]
  constructor
  · rintro ⟨a, _, found, ⟨⟩⟩
    exact ⟨a, found, rfl⟩
  · rintro ⟨a, found, rfl⟩
    exact ⟨a, s', found, rfl⟩

/-- A function of the result of a computation fails with the computation. -/
theorem Gives.map {x : EStateM ε σ α} {r : Except ε α} (h : Gives x s r s') (f : α → β) :
    Gives (f <$> x) s (r.map f) s' := by
  have unfolded : (f <$> x) s = match x s with
    | .ok a s₁ => .ok (f a) s₁
    | .error e s₁ => .error e s₁ := rfl
  cases r with
  | ok a =>
    rw [gives_ok_iff] at h
    simp [Gives, Except.map, unfolded, h]
  | error e =>
    rw [gives_error_iff] at h
    simp [Gives, Except.map, unfolded, h]

end ClassSymbols
