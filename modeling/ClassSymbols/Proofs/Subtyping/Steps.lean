import ClassSymbols.Proofs.Subtyping.Links
import ClassSymbols.Proofs.Subtyping.Structural
import Mathlib.Data.List.Forall2
import Mathlib.Logic.Relation

/-!
# Steps of a comparison by way of supertypes

A comparison that follows supertypes accepts two types for one of four reasons, each of which rests
on comparisons with less room. What holds of all comparisons is proved from one such step to the
next, by induction on the room.

## Main definitions

* `TypeArgument.Fits` — whether an argument may stand where another one is expected.
* `Store.Accepts` — why a type is below another one, given the comparisons that this may rest on.
* `Store.Below` — whether a type is below another one in some number of steps.
* `Store.Compares`, `Store.RestsOn` — the comparisons that a comparison leads to, and those that are
  accepted.
* `Store.Settles` — whether a comparison is over in less than a number of steps.

## Main statements

* `Store.belowWithin_succ_iff` — a comparison accepts for these reasons and no others.
* `Store.belowWithin_mono` — more room accepts no less.
* `Store.belowWithin_withNullable` — nullability only matters at the outermost level.
* `Store.below_iff` — the same reasons without a bound on the steps.
* `Store.Settles.belowWithin_iff` — the bound does not matter to a comparison that is over in time.
-/

namespace ClassSymbols

open Relation

/-! ## Arguments -/

/-- Whether an argument may stand where another one is expected. -/
inductive TypeArgument.Fits (typeBelow : Ty → Ty → Prop) : TypeArgument → TypeArgument → Prop
  | star (argument : TypeArgument) : Fits typeBelow argument .star
  | covariant {variance : Variance} {a b : Ty} (other : variance ≠ .contravariant)
      (below : typeBelow a b) :
    Fits typeBelow (.projected variance a) (.projected .covariant b)
  | contravariant {variance : Variance} {a b : Ty} (other : variance ≠ .covariant)
      (below : typeBelow b a) :
    Fits typeBelow (.projected variance a) (.projected .contravariant b)
  | same (type : Ty) : Fits typeBelow (.invariant type) (.invariant type)

namespace TypeArgument

theorem Fits.imp {P Q : Ty → Ty → Prop} (imp : ∀ {x y}, P x y → Q x y) {a b : TypeArgument}
    (h : Fits P a b) :
    Fits Q a b := by
  cases h with
  | star => exact .star a
  | covariant other h => exact .covariant other (imp h)
  | contravariant other h => exact .contravariant other (imp h)
  | same type => exact .same type

theorem fits_iff {typeBelow : Ty → Ty → Bool} {a b : TypeArgument} :
    a.fits typeBelow b = true ↔ Fits (fun x y => typeBelow x y = true) a b := by
  constructor
  · intro h
    cases b with
    | star => exact .star a
    | projected w y =>
      cases a with
      | star => cases h
      | projected v x =>
        cases w with
        | covariant =>
          obtain ⟨other, below⟩ := Bool.and_eq_true_iff.1 h
          exact .covariant (bne_iff_ne.1 other) below
        | contravariant =>
          obtain ⟨other, below⟩ := Bool.and_eq_true_iff.1 h
          exact .contravariant (bne_iff_ne.1 other) below
        | invariant =>
          obtain ⟨same, types⟩ := Bool.and_eq_true_iff.1 h
          obtain rfl := beq_iff_eq.1 same
          obtain rfl := beq_iff_eq.1 types
          exact .same x
  · intro h
    cases h with
    | star => cases a <;> rfl
    | covariant other below => exact Bool.and_eq_true_iff.2 ⟨bne_iff_ne.2 other, below⟩
    | contravariant other below => exact Bool.and_eq_true_iff.2 ⟨bne_iff_ne.2 other, below⟩
    | same type => simp [fits, invariant]

end TypeArgument

namespace Store

variable {store : Store} {room : Nat} {sub sup supertype : Ty} {k l : ClassId}

/-! ## One step -/

/-- Why a type is below another one: by structure, since that is the root, since their arguments
fit, or since a supertype is below it. -/
inductive Accepts (store : Store) (below : Ty → Ty → Prop) (sub sup : Ty) : Prop
  | structural (h : sub.structurallyBelow sup = true)
  | root (root : sup.isAny = true) (plain : sub.nullable = false)
  | arguments {k : ClassId} (hsub : sub.classId? = some k) (hsup : sup.classId? = some k)
    (le : sub.nullable = true → sup.nullable = true)
    (fits : List.Forall₂ (TypeArgument.Fits below) sub.arguments sup.arguments)
  | supertype {k l : ClassId} {supertype : Ty} (hsub : sub.classId? = some k)
      (hsup : sup.classId? = some l) (apart : k ≠ l)
      (le : sub.nullable = true → sup.nullable = true) (mem : supertype ∈ store.supertypesOf sub)
      (h : below supertype sup)

theorem Accepts.mono {below below' : Ty → Ty → Prop} (imp : ∀ {x y}, below x y → below' x y)
    (h : store.Accepts below sub sup) : store.Accepts below' sub sup := by
  cases h with
  | structural h => exact .structural h
  | root root plain => exact .root root plain
  | arguments hsub hsup le fits =>
    exact .arguments hsub hsup le (fits.imp fun _ _ fits => fits.imp imp)
  | supertype hsub hsup apart le mem h => exact .supertype hsub hsup apart le mem (imp h)

/-- A comparison with room for one more step accepts for these reasons. -/
theorem belowWithin_succ_iff : store.belowWithin (room + 1) sub sup = true ↔
    store.Accepts (fun x y => store.belowWithin room x y = true) sub sup := by
  have fits : (sub.arguments.length = sup.arguments.length ∧
      ∀ pair ∈ sub.arguments.zip sup.arguments,
        pair.1.fits (store.belowWithin room) pair.2 = true) ↔
      List.Forall₂ (TypeArgument.Fits fun x y => store.belowWithin room x y = true) sub.arguments
        sup.arguments := by
    rw [List.forall₂_iff_zip]
    simp only [TypeArgument.fits_iff, Prod.forall]
  constructor
  · intro h
    rw [belowWithin, Bool.or_eq_true] at h
    rcases h with h | h
    · exact .structural h
    by_cases le : sub.nullable = true → sup.nullable = true
    swap
    · simp_all
    rw [if_neg (by simpa using le)] at h
    by_cases root : sup.isAny = true ∧ sub.nullable = false
    · exact .root root.1 root.2
    rw [if_neg (by simpa using root)] at h
    cases hsub : sub.classId? with
    | none => simp [hsub] at h
    | some k =>
      cases hsup : sup.classId? with
      | none => simp [hsub, hsup] at h
      | some l =>
        simp only [hsub, hsup] at h
        split at h
        · next same =>
          subst same
          rw [Bool.and_eq_true, List.all_eq_true, beq_iff_eq] at h
          exact .arguments hsub hsup le (fits.1 h)
        · next apart =>
          obtain ⟨supertype, mem, h⟩ := List.any_eq_true.1 h
          exact .supertype hsub hsup apart le mem h
  · intro h
    rw [belowWithin, Bool.or_eq_true]
    cases h with
    | structural h => exact .inl h
    | root root plain => simp [root, plain]
    | arguments hsub hsup le h =>
      obtain ⟨length, each⟩ := fits.2 h
      right
      rw [if_neg (by simpa using le)]
      split
      · rfl
      · simp only [hsub, hsup, if_pos, Bool.and_eq_true, List.all_eq_true, beq_iff_eq]
        exact ⟨length, each⟩
    | supertype hsub hsup apart le mem h =>
      right
      rw [if_neg (by simpa using le)]
      split
      · rfl
      · simp only [hsub, hsup, if_neg apart]
        exact List.any_eq_true.2 ⟨_, mem, h⟩

/-! ## Room -/

theorem belowWithin_of_structurallyBelow (h : sub.structurallyBelow sup = true) :
    store.belowWithin room sub sup = true := by
  cases room with
  | zero => exact h
  | succ room => exact belowWithin_succ_iff.2 (.structural h)

/-- What is accepted in fewer steps is accepted in more. -/
theorem belowWithin_mono {more : Nat} (le : room ≤ more)
    (h : store.belowWithin room sub sup = true) :
    store.belowWithin more sub sup = true := by
  induction room generalizing more sub sup with
  | zero => exact belowWithin_of_structurallyBelow h
  | succ room ih =>
    obtain ⟨more, rfl⟩ : ∃ n, more = n + 1 := ⟨more - 1, by omega⟩
    exact belowWithin_succ_iff.2 ((belowWithin_succ_iff.1 h).mono (ih (by omega)))

/-! ## Nullability -/

theorem nullable_of_belowWithin (h : store.belowWithin room sub sup = true)
    (nullable : sub.nullable = true) :
    sup.nullable = true := by
  cases room with
  | zero => exact (Ty.structurallyBelow_iff.1 h).1 nullable
  | succ room =>
    cases belowWithin_succ_iff.1 h with
    | structural h => exact (Ty.structurallyBelow_iff.1 h).1 nullable
    | root _ plain => simp [nullable] at plain
    | arguments _ _ le => exact le nullable
    | supertype _ _ _ le => exact le nullable

/-- Whether types are below one another depends on their nullability only by their order. What is
not nullable is below the root in one step. -/
theorem belowWithin_withNullable {nullable nullable' : Bool}
    (h : store.belowWithin room sub sup = true) (le : nullable = true → nullable' = true)
    (root : room = 0 → sup.isAny = true → sup.nullable = true → nullable' = true) :
    store.belowWithin room (sub.withNullable nullable) (sup.withNullable nullable') = true := by
  induction room generalizing sub with
  | zero =>
    obtain ⟨-, h⟩ := Ty.structurallyBelow_iff.1 h
    refine Ty.structurallyBelow_iff.2 ⟨le, ?_⟩
    rcases h with least | ⟨any, top⟩ | same
    · exact .inl least
    · exact .inr (.inl ⟨any, root rfl any top⟩)
    · rw [← same]
      exact .inr (.inr rfl)
  | succ room ih =>
    by_cases any : sup.isAny = true
    · -- below the root there is nothing to compare but nullability
      cases top : nullable' with
      | true =>
        exact belowWithin_of_structurallyBelow
          (Ty.structurallyBelow_iff.2 ⟨fun _ => rfl, .inr (.inl ⟨any, rfl⟩)⟩)
      | false =>
        have plain : nullable = false := Bool.eq_false_iff.2 fun h => by simp [le h] at top
        exact belowWithin_succ_iff.2 (.root any plain)
    · rw [belowWithin_succ_iff] at h ⊢
      cases h with
      | structural h =>
        obtain ⟨-, least | ⟨any', -⟩ | same⟩ := Ty.structurallyBelow_iff.1 h
        · exact .structural (Ty.structurallyBelow_iff.2 ⟨le, .inl least⟩)
        · exact absurd any' any
        · rw [← same]
          exact .structural (Ty.structurallyBelow_iff.2 ⟨le, .inr (.inr rfl)⟩)
      | root any' _ => exact absurd any' any
      | arguments hsub hsup _ fits => exact .arguments hsub hsup le fits
      | supertype hsub hsup apart _ mem h =>
        refine .supertype hsub hsup apart le (mem_supertypesOf_withNullable.2 ⟨_, mem, rfl⟩) ?_
        exact ih h fun _ any' => absurd any' any

/-! ## Any number of steps -/

def Below (store : Store) (sub sup : Ty) : Prop := ∃ room, store.belowWithin room sub sup = true

/-- Arguments that fit do so in one number of steps. -/
theorem exists_forall₂_fits {as bs : List TypeArgument}
    (h : List.Forall₂ (TypeArgument.Fits store.Below) as bs) :
    ∃ room, List.Forall₂ (TypeArgument.Fits fun x y => store.belowWithin room x y = true) as
      bs := by
  have first {a b : TypeArgument} (h : TypeArgument.Fits store.Below a b) :
      ∃ room, TypeArgument.Fits (fun x y => store.belowWithin room x y = true) a b := by
    cases h with
    | star => exact ⟨0, .star a⟩
    | covariant other h => exact h.imp fun _ => .covariant other
    | contravariant other h => exact h.imp fun _ => .contravariant other
    | same type => exact ⟨0, .same type⟩
  induction h with
  | nil => exact ⟨0, .nil⟩
  | cons h _ ih =>
    obtain ⟨room, h⟩ := first h
    obtain ⟨room', rest⟩ := ih
    refine ⟨max room room', .cons (h.imp ?_) (rest.imp fun _ _ h => h.imp ?_)⟩
    · exact belowWithin_mono (Nat.le_max_left room room')
    · exact belowWithin_mono (Nat.le_max_right room room')

/-- A type is below another one for one of four reasons. -/
theorem below_iff : store.Below sub sup ↔ store.Accepts store.Below sub sup := by
  constructor
  · rintro ⟨room, h⟩
    exact (belowWithin_succ_iff.1 (belowWithin_mono (Nat.le_add_right room 1) h)).mono fun h =>
      ⟨room, h⟩
  · intro h
    have within {room : Nat}
      (h : store.Accepts (fun x y => store.belowWithin room x y = true) sub sup) :
        store.Below sub sup := ⟨room + 1, belowWithin_succ_iff.2 h⟩
    cases h with
    | structural h => exact ⟨0, h⟩
    | root root plain => exact ⟨1, belowWithin_succ_iff.2 (.root root plain)⟩
    | arguments hsub hsup le fits =>
      obtain ⟨room, fits⟩ := exists_forall₂_fits fits
      exact within (.arguments hsub hsup le fits)
    | supertype hsub hsup apart le mem h =>
      obtain ⟨room, h⟩ := h
      exact within (.supertype hsub hsup apart le mem h)

namespace Below

theorem of_structurallyBelow (h : sub.structurallyBelow sup = true) : store.Below sub sup := ⟨0, h⟩

theorem refl (store : Store) (type : Ty) : store.Below type type :=
  .of_structurallyBelow type.structurallyBelow_self

/-- Every type is below the root, unless it is nullable and the root is not. -/
theorem of_isAny (root : sup.isAny = true) (le : sub.nullable = true → sup.nullable = true) :
    store.Below sub sup := by
  cases top : sup.nullable with
  | true => exact .of_structurallyBelow (Ty.structurallyBelow_iff.2 ⟨le, .inr (.inl ⟨root, top⟩)⟩)
  | false =>
    exact below_iff.2
      (.root root (Bool.eq_false_iff.2 fun nullable => by simp [le nullable] at top))

theorem nullable (h : store.Below sub sup) : sub.nullable = true → sup.nullable = true := by
  obtain ⟨room, h⟩ := h
  exact nullable_of_belowWithin h

theorem withNullable {nullable nullable' : Bool} (h : store.Below sub sup)
    (le : nullable = true → nullable' = true) :
    store.Below (sub.withNullable nullable) (sup.withNullable nullable') := by
  obtain ⟨room, h⟩ := h
  have more := belowWithin_mono (Nat.le_add_right room 1) h
  exact ⟨room + 1, belowWithin_withNullable more le fun none => absurd none (Nat.succ_ne_zero room)⟩

end Below

/-! ## Comparisons that a comparison leads to -/

/-- The comparison that a comparison of two types with one class leads to for a pair of their
arguments. -/
def argumentComparison? : TypeArgument × TypeArgument → Option (Ty × Ty)
  | (.projected _ x, .projected .covariant y) => some (x, y)
  | (.projected _ x, .projected .contravariant y) => some (y, x)
  | _ => none

/-- The comparisons that a comparison of two types leads to: of the supertypes of the first one if
their classes differ, and of the types of their arguments if not. -/
def comparisons (store : Store) (sub sup : Ty) : List (Ty × Ty) :=
  match sub.classId?, sup.classId? with
  | some k, some l =>
    if k = l then (sub.arguments.zip sup.arguments).filterMap argumentComparison?
    else (store.supertypesOf sub).map (·, sup)
  | _, _ => []

def Compares (store : Store) (pair next : Ty × Ty) : Prop := next ∈ store.comparisons pair.1 pair.2

def RestsOn (store : Store) (pair next : Ty × Ty) : Prop :=
  store.Compares pair next ∧ store.Below next.1 next.2

theorem compares_supertype (hsub : sub.classId? = some k) (hsup : sup.classId? = some l)
    (apart : k ≠ l) (mem : supertype ∈ store.supertypesOf sub) :
    store.Compares (sub, sup) (supertype, sup) := by
  simpa [Compares, comparisons, hsub, hsup, apart] using mem

theorem compares_argument (hsub : sub.classId? = some k) (hsup : sup.classId? = some k)
    {pair : TypeArgument × TypeArgument} (paired : pair ∈ sub.arguments.zip sup.arguments)
    {next : Ty × Ty} (h : argumentComparison? pair = some next) :
    store.Compares (sub, sup) next := by
  simp only [Compares, comparisons, hsub, hsup, if_pos]
  exact List.mem_filterMap.2 ⟨pair, paired, h⟩

/-- A list of comparisons that has all that its members lead to has all that is ever led to. -/
theorem mem_of_reflTransGen_restsOn {pairs : List (Ty × Ty)} {start pair : Ty × Ty}
    (closed : ∀ pair ∈ pairs, ∀ next ∈ store.comparisons pair.1 pair.2, next ∈ pairs)
    (mem : start ∈ pairs) (reached : ReflTransGen store.RestsOn start pair) : pair ∈ pairs := by
  induction reached with
  | refl => exact mem
  | tail _ step ih => exact closed _ ih _ step.1

/-- A step rests only on comparisons that it leads to. -/
theorem Accepts.compares {below below' : Ty → Ty → Prop} (h : store.Accepts below sub sup)
    (imp : ∀ {x y}, store.Compares (sub, sup) (x, y) → below x y → below' x y) :
    store.Accepts below' sub sup := by
  cases h with
  | structural h => exact .structural h
  | root root plain => exact .root root plain
  | arguments hsub hsup le fits =>
    refine .arguments hsub hsup le (List.forall₂_iff_zip.2 ⟨fits.length_eq, fun {x y} paired => ?_⟩)
    have next {next : Ty × Ty} (h : argumentComparison? (x, y) = some next) :
        store.Compares (sub, sup) next :=
      compares_argument hsub hsup paired h
    cases (List.forall₂_iff_zip.1 fits).2 paired with
    | star => exact .star _
    | covariant other h => exact .covariant other (imp (next rfl) h)
    | contravariant other h => exact .contravariant other (imp (next rfl) h)
    | same type => exact .same type
  | supertype hsub hsup apart le mem h =>
    exact .supertype hsub hsup apart le mem (imp (compares_supertype hsub hsup apart mem) h)

/-- Whether all comparisons that a comparison leads to are over in less than a number of steps. -/
def Settles (store : Store) : Nat → Ty → Ty → Prop
  | 0, _, _ => False
  | room + 1, sub, sup => ∀ next ∈ store.comparisons sub sup, store.Settles room next.1 next.2

instance decidableSettles (store : Store) : ∀ room sub sup, Decidable (store.Settles room sub sup)
  | 0, _, _ => .isFalse id
  | room + 1, sub, sup =>
    have (next : Ty × Ty) : Decidable (store.Settles room next.1 next.2) :=
      decidableSettles store room next.1 next.2
    inferInstanceAs
      (Decidable (∀ next ∈ store.comparisons sub sup, store.Settles room next.1 next.2))

/-- A comparison that is over in time says whether a type is below another one. -/
theorem Settles.belowWithin_iff (settles : store.Settles room sub sup) :
    store.belowWithin room sub sup = true ↔ store.Below sub sup := by
  refine ⟨fun h => ⟨room, h⟩, fun h => ?_⟩
  induction room generalizing sub sup with
  | zero => cases settles
  | succ room ih =>
    exact belowWithin_succ_iff.2 ((below_iff.1 h).compares fun next h => ih (settles _ next) h)

end Store

end ClassSymbols
