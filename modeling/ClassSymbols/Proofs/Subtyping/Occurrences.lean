import ClassSymbols.Proofs.Data.Related
import ClassSymbols.Proofs.Subtyping.Steps

/-!
# Replacements at the places of a type

A type grows with what replaces its parameters where these stand in `out` projections, shrinks with
it where they stand in `in` projections, and has to stay the same where they stand in arguments that
do not vary. So a supertype that a class lists grows with the arguments of a type, if each of these
says no more than its type does at the places of its parameter. Where that is not so, it may still
be below a type that is the listed one with projections that say less.

## Main definitions

* `Ty.occurrences` — the parameters that a type refers to, with their places.
* `Store.Ordered` — how two types compare at a place.
* `Ty.Loosens` — whether a type is another one with projections that say less.
* `Ty.Carries` — whether the arguments of a type are kept at the places of their parameters.

## Main statements

* `Store.ordered_mapParameters` — ordered replacements make ordered types.
* `Store.below_mapParameters_of_loosens` — and a type below one that says less.
* `Store.below_seenFrom` — what a listed supertype is for two types of which the arguments fit.
-/

namespace ClassSymbols

/-! ## Places -/

/-- How something varies inside a place: as the place does, the other way round, or not at all. -/
def Variance.within : Variance → Variance → Variance
  | .covariant, place => place
  | .contravariant, .covariant => .contravariant
  | .contravariant, .contravariant => .covariant
  | _, _ => .invariant

@[simp] theorem Variance.within_covariant (variance : Variance) :
    variance.within .covariant = variance := by
  cases variance <;> rfl

@[simp] theorem Variance.within_invariant (variance : Variance) :
    variance.within .invariant = .invariant := by
  cases variance <;> rfl

mutual
/-- The parameters that a type at a place refers to, with their own places. The arguments of a
parameter do not vary. -/
def Ty.occurrences (place : Variance) : Ty → List (Variance × ParameterRef)
  | .mk (.classifier _) arguments _ => TypeArgument.occurrencesList place arguments
  | .mk (.parameter ref) arguments _ =>
    (place, ref) :: TypeArgument.occurrencesList .invariant arguments

def TypeArgument.occurrencesList (place : Variance) :
    List TypeArgument → List (Variance × ParameterRef)
  | [] => []
  | argument :: rest =>
    TypeArgument.occurrences place argument ++ TypeArgument.occurrencesList place rest

def TypeArgument.occurrences (place : Variance) : TypeArgument → List (Variance × ParameterRef)
  | .star => []
  | .projected variance type => Ty.occurrences (variance.within place) type
end

theorem TypeArgument.mem_occurrencesList_of_mem {place variance : Variance} {type : Ty}
    {arguments : List TypeArgument} {occurrence : Variance × ParameterRef}
    (mem : .projected variance type ∈ arguments)
    (h : occurrence ∈ type.occurrences (variance.within place)) :
    occurrence ∈ occurrencesList place arguments := by
  induction arguments with
  | nil => cases mem
  | cons argument rest ih =>
    rw [occurrencesList, List.mem_append]
    rcases List.mem_cons.1 mem with rfl | mem
    · exact .inl h
    · exact .inr (ih mem)

/-- The parameters in an argument of a class type are parameters of the type. -/
theorem Ty.mem_occurrences_of_mem {place variance : Variance} {type argument : Ty} {k : ClassId}
    {occurrence : Variance × ParameterRef} (named : type.classId? = some k)
    (mem : .projected variance argument ∈ type.arguments)
    (h : occurrence ∈ argument.occurrences (variance.within place)) :
    occurrence ∈ type.occurrences place := by
  obtain ⟨head, arguments, nullable⟩ := type
  cases head with
  | classifier => exact TypeArgument.mem_occurrencesList_of_mem mem h
  | parameter => cases named

namespace Store

variable {store : Store} {place : Variance} {x y : Ty}

/-- How types compare at a place: the first one is below, it is above, or they are equal. -/
def Ordered (store : Store) : Variance → Ty → Ty → Prop
  | .covariant, x, y => store.Below x y
  | .contravariant, x, y => store.Below y x
  | .invariant, x, y => x = y

theorem Ordered.refl (place : Variance) (type : Ty) : store.Ordered place type type := by
  cases place with
  | covariant => exact Below.refl store type
  | contravariant => exact Below.refl store type
  | invariant => exact Eq.refl type

theorem Ordered.makeNullable (h : store.Ordered place x y) :
    store.Ordered place x.makeNullable y.makeNullable := by
  cases place with
  | covariant => exact Below.withNullable h id
  | contravariant => exact Below.withNullable h id
  | invariant => exact congrArg Ty.makeNullable h

/-- Inside a place that turns comparisons round, types compare the other way. -/
theorem ordered_within_contravariant_iff {variance : Variance} :
    store.Ordered (variance.within .contravariant) x y ↔ store.Ordered variance y x := by
  cases variance with
  | covariant => exact Iff.rfl
  | contravariant => exact Iff.rfl
  | invariant => exact eq_comm

/-! ## Ordered replacements -/

section Replacements

variable {f g : ParameterRef → Option Ty} {arguments : List TypeArgument}

/-- An argument fits the one in which its type has moved as its projection allows. -/
theorem fits_mapParameters {variance : Variance} {type : Ty}
    (ordered : store.Ordered variance (type.mapParameters f) (type.mapParameters g)) :
    TypeArgument.Fits store.Below ((TypeArgument.projected variance type).mapParameters f)
      ((TypeArgument.projected variance type).mapParameters g) := by
  cases variance with
  | covariant => exact .covariant (by decide) ordered
  | contravariant => exact .contravariant (by decide) ordered
  | invariant =>
    have same : type.mapParameters f = type.mapParameters g := ordered
    rw [TypeArgument.mapParameters, TypeArgument.mapParameters, same]
    exact .same _

/-- A class type grows if the types of its arguments move as their projections allow. -/
theorem below_mapArguments (k : ClassId) (nullable : Bool)
    (each : ∀ variance type, .projected variance type ∈ arguments →
      store.Ordered variance (type.mapParameters f) (type.mapParameters g)) :
    store.Below (.mk (.classifier k) (arguments.map (TypeArgument.mapParameters f)) nullable)
      (.mk (.classifier k) (arguments.map (TypeArgument.mapParameters g)) nullable) := by
  refine below_iff.2 (.arguments rfl rfl id ?_)
  rw [Ty.arguments_mk, Ty.arguments_mk, List.forall₂_map_left_iff, List.forall₂_map_right_iff,
    List.forall₂_same]
  intro argument mem
  cases argument with
  | star => exact .star _
  | projected variance type => exact fits_mapParameters (each variance type mem)

/-- Replacements that compare as the places of the parameters ask for make types that compare as
their place asks for. -/
theorem ordered_mapParameters {type : Ty}
    (h : ∀ occurrence ∈ type.occurrences place,
      Option.Rel (store.Ordered occurrence.1) (f occurrence.2) (g occurrence.2)) :
    store.Ordered place (type.mapParameters f) (type.mapParameters g) := by
  induction type using Ty.induction generalizing place with
  | step head arguments nullable ih =>
    rw [Ty.mapParameters_mk, Ty.mapParameters_mk]
    cases head with
    | classifier k =>
      have each (variance : Variance) (type : Ty) (mem : .projected variance type ∈ arguments) :
          store.Ordered (variance.within place) (type.mapParameters f) (type.mapParameters g) :=
        ih variance type mem fun occurrence inner =>
          h occurrence (Ty.mem_occurrences_of_mem rfl mem inner)
      cases place with
      | covariant =>
        refine below_mapArguments k nullable fun variance type mem => ?_
        rw [← variance.within_covariant]
        exact each variance type mem
      | contravariant =>
        exact below_mapArguments k nullable fun variance type mem =>
          ordered_within_contravariant_iff.1 (each variance type mem)
      | invariant =>
        refine congrArg (Ty.mk (.classifier k) · nullable)
          (Ty.mapArguments_congr fun variance type mem => ?_)
        have same := each variance type mem
        rwa [variance.within_invariant] at same
    | parameter ref =>
      have replaced : Option.Rel (store.Ordered place) (f ref) (g ref) :=
        h (place, ref) List.mem_cons_self
      simp only [TypeHead.replacement?]
      generalize f ref = replacement, g ref = replacement' at replaced ⊢
      cases replaced with
      | none =>
        -- the arguments of a parameter that stays have no room to move
        have same : arguments.map (TypeArgument.mapParameters f) =
            arguments.map (TypeArgument.mapParameters g) := by
          refine Ty.mapArguments_congr fun variance type mem => ?_
          change store.Ordered .invariant (type.mapParameters f) (type.mapParameters g)
          refine ih variance type mem fun occurrence inner => ?_
          rw [← variance.within_invariant] at inner
          exact h occurrence
            (List.mem_cons_of_mem _ (TypeArgument.mem_occurrencesList_of_mem mem inner))
        simp only [same]
        exact .refl place _
      | some ordered =>
        cases nullable with
        | true => exact ordered.makeNullable
        | false => exact ordered

end Replacements

end Store

/-! ## Projections that are put back -/

/-- Whether an argument is another one with a projection that says less: a star, a projection on
what does not vary, or an `out` projection of a type that says less in turn. -/
inductive TypeArgument.Loosens (typeLoosens : Ty → Ty → Prop) : TypeArgument → TypeArgument → Prop
  | same (argument : TypeArgument) : Loosens typeLoosens argument argument
  | star (argument : TypeArgument) : Loosens typeLoosens argument .star
  | covariant {variance : Variance} {x y : Ty} (other : variance ≠ .contravariant)
      (h : typeLoosens x y) :
    Loosens typeLoosens (.projected variance x) (.projected .covariant y)
  | contravariant (type : Ty) :
    Loosens typeLoosens (.invariant type) (.projected .contravariant type)

/-- Whether a type is another one with projections that say less on some levels. -/
def Ty.Loosens : Nat → Ty → Ty → Prop
  | 0, x, y => x = y
  | levels + 1, x, y => ∃ k, x.classId? = some k ∧ y.classId? = some k ∧ x.nullable = y.nullable ∧
      List.Forall₂ (TypeArgument.Loosens (Ty.Loosens levels)) x.arguments y.arguments

namespace Store

variable {store : Store} {f g : ParameterRef → Option Ty} {levels : Nat} {x y : Ty}

/-- A type is below one that says less and in which replacements compare as the places of the
parameters ask for. -/
theorem below_mapParameters_of_loosens (loosens : x.Loosens levels y)
    (h : ∀ occurrence ∈ y.occurrences .covariant,
      Option.Rel (store.Ordered occurrence.1) (f occurrence.2) (g occurrence.2)) :
    store.Below (x.mapParameters f) (y.mapParameters g) := by
  induction levels generalizing x y with
  | zero =>
    obtain rfl : x = y := loosens
    exact ordered_mapParameters h
  | succ levels ih =>
    obtain ⟨k, hx, hy, nullable, each⟩ := loosens
    have inside {variance : Variance} {type : Ty} (mem : .projected variance type ∈ y.arguments) :
        ∀ occurrence ∈ type.occurrences variance,
          Option.Rel (store.Ordered occurrence.1) (f occurrence.2) (g occurrence.2) := by
      intro occurrence inner
      rw [← variance.within_covariant] at inner
      exact h occurrence (Ty.mem_occurrences_of_mem hy mem inner)
    rw [Ty.mapParameters_of_classId? hx, Ty.mapParameters_of_classId? hy, nullable]
    refine below_iff.2 (.arguments rfl rfl id ?_)
    rw [Ty.arguments_mk, Ty.arguments_mk, List.forall₂_map_left_iff, List.forall₂_map_right_iff,
      List.forall₂_iff_zip]
    refine ⟨each.length_eq, fun {x y} paired => ?_⟩
    have mem := (List.of_mem_zip paired).2
    cases (List.forall₂_iff_zip.1 each).2 paired with
    | same =>
      cases x with
      | star => exact .star _
      | projected variance type => exact fits_mapParameters (ordered_mapParameters (inside mem))
    | star => exact .star _
    | covariant other loosens => exact .covariant other (ih loosens (inside mem))
    | contravariant type =>
      have ordered : store.Ordered .contravariant (type.mapParameters f) (type.mapParameters g) :=
        ordered_mapParameters (inside mem)
      exact .contravariant (by decide) ordered

end Store

/-! ## Arguments that keep their projections -/

/-- Whether the type of an argument says as much at a place as the argument does. A star stands for
all types, which the root is above. -/
def TypeArgument.KeptAt (place : Variance) : TypeArgument → Prop
  | .star => place = .covariant
  | .projected variance _ => variance = .invariant ∨ variance = place

instance (place : Variance) : (argument : TypeArgument) → Decidable (argument.KeptAt place)
  | .star => inferInstanceAs (Decidable (_ = _))
  | .projected _ _ => inferInstanceAs (Decidable (_ ∨ _))

/-- Whether each argument of a type is kept at the places that its parameter has in a type that the
class of the type lists. -/
def Ty.Carries (type : Ty) (owner : DeclId) (listed : Ty) : Prop :=
  ∀ occurrence ∈ listed.occurrences .covariant, occurrence.2.owner = owner →
    ∀ argument ∈ type.arguments[occurrence.2.index]?, argument.KeptAt occurrence.1

instance (type : Ty) (owner : DeclId) (listed : Ty) : Decidable (type.Carries owner listed) :=
  inferInstanceAs (Decidable (∀ _ ∈ _, _))

namespace Store

variable {store : Store} {place : Variance} {a b listed loose : Ty} {levels : Nat}

/-- If an argument fits another one that is kept at a place, then their types compare there. -/
theorem ordered_of_fits {x y : TypeArgument} (kept : y.KeptAt place)
    (fits : TypeArgument.Fits store.Below x y) :
    store.Ordered place (Substitution.replacementOfArgument x)
      (Substitution.replacementOfArgument y) := by
  cases fits with
  | star =>
    obtain rfl : place = .covariant := kept
    exact Below.of_isAny rfl fun _ => rfl
  | covariant _ h =>
    obtain same | rfl := kept
    · cases same
    · exact h
  | contravariant _ h =>
    obtain same | rfl := kept
    · cases same
    · exact h
  | same type => exact .refl place type

/-- If the arguments of a type fit those of another one, then what a listed type is for the first
one is below what it is for the other one with projections that keep those of its arguments. -/
theorem below_seenFrom {owner : DeclId} (loosens : listed.Loosens levels loose)
    (carries : b.Carries owner loose) (le : a.nullable = true → b.nullable = true)
    (fits : List.Forall₂ (TypeArgument.Fits store.Below) a.arguments b.arguments) :
    store.Below (listed.seenFrom owner a) (loose.seenFrom owner b) := by
  refine Below.withNullable (below_mapParameters_of_loosens loosens fun occurrence inner => ?_) le
  rw [Substitution.replacement?, Substitution.replacement?, Substitution.get?_ofSupertype,
    Substitution.get?_ofSupertype]
  split
  · next own =>
    have kept := carries occurrence inner own
    have paired := forall₂_getElem? fits occurrence.2.index
    generalize a.arguments[occurrence.2.index]? = x, b.arguments[occurrence.2.index]? = y
      at kept paired ⊢
    cases paired with
    | none => exact .none
    | some fits => exact .some (ordered_of_fits (kept _ rfl) fits)
  · exact .none

end Store

end ClassSymbols
