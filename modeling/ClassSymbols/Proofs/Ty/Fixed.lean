import ClassSymbols.Proofs.Overrides.Instantiation

/-!
# Types that a substitution does not change

A substitution does not change a type iff it replaces the type parameters in it by themselves. A
parameter that is marked nullable may as well be replaced by its nullable form. When signatures are
compared, the type parameters of the member keep their position only; a substitution that has
nothing to do with them changes no more for that.

## Main definitions

* `Ty.Unapplied` — types in which type parameters have no arguments.
* `Ty.Exposes` — whether a type refers to a parameter without marking it nullable.

## Main statements

* `Ty.substitute_eq_of_anonymize_eq` — what looks the same after a substitution is the same.
* `Ty.replacement_of_substitute_eq`, `Ty.replacement_of_exposes` — what the parameters are replaced
  by.
-/

namespace ClassSymbols.Ty

variable {type replacement : Ty} {substitution : Substitution} {ref : ParameterRef} {own : DeclId}

/-- Whether the type parameters in a type have no arguments. -/
inductive Unapplied : Ty → Prop where
  | classifier {id : ClassId} {arguments : List TypeArgument} {nullable : Bool}
      (each : ∀ variance type, .projected variance type ∈ arguments → Unapplied type) :
      Unapplied (.mk (.classifier id) arguments nullable)
  | parameter {ref : ParameterRef} {nullable : Bool} : Unapplied (.mk (.parameter ref) [] nullable)

/-- Whether a type refers to a parameter somewhere without marking it nullable. -/
inductive Exposes (ref : ParameterRef) : Ty → Prop where
  | head {arguments : List TypeArgument} : Exposes ref (.mk (.parameter ref) arguments false)
  | argument {head : TypeHead} {arguments : List TypeArgument} {nullable : Bool}
      {variance : Variance} {type : Ty} (listed : .projected variance type ∈ arguments)
      (exposes : Exposes ref type) :
      Exposes ref (.mk head arguments nullable)

/-! ## Substitutions and what types are built from -/

@[simp] theorem parameters_mk_parameter (ref : ParameterRef) (nullable : Bool) :
    (Ty.mk (.parameter ref) [] nullable).parameters = [ref] := rfl

/-- Replacements make the same of arguments iff they make the same of the types among them. -/
theorem mapArguments_eq_iff {f g : ParameterRef → Option Ty} {arguments : List TypeArgument} :
    arguments.map (TypeArgument.mapParameters f) = arguments.map (TypeArgument.mapParameters g) ↔
      ∀ variance type, .projected variance type ∈ arguments →
        type.mapParameters f = type.mapParameters g := by
  refine ⟨fun same variance type listed => ?_, mapArguments_congr⟩
  exact (TypeArgument.projected.inj (List.map_inj_left.1 same _ listed)).2

/-- A class applied to arguments is not changed iff none of the types among them is. -/
theorem substitute_mk_classifier_eq_iff {id : ClassId} {arguments : List TypeArgument}
    {nullable : Bool} :
    (Ty.mk (.classifier id) arguments nullable).substitute substitution =
      .mk (.classifier id) arguments nullable ↔
      ∀ variance type, .projected variance type ∈ arguments →
        type.substitute substitution = type := by
  conv_lhs => rhs; rw [← mapParameters_none (.mk (.classifier id) arguments nullable)]
  rw [substitute, mapParameters_mk, mapParameters_mk]
  simp only [TypeHead.replacement?, Ty.mk.injEq, true_and, and_true, mapArguments_eq_iff,
    mapParameters_none]
  rfl

theorem substitute_mk_parameter (replaced : substitution.replacement? ref = some replacement)
    (arguments : List TypeArgument) (nullable : Bool) :
    (Ty.mk (.parameter ref) arguments nullable).substitute substitution =
      if nullable then replacement.makeNullable else replacement := by
  rw [substitute, mapParameters_mk]
  simp only [TypeHead.replacement?, replaced]

/-- A substitution does not change a type whose parameters it replaces by themselves. -/
theorem substitute_eq_of_forall (plain : type.Unapplied)
    (itself : ∀ ref ∈ type.parameters,
      ∀ replacement, substitution.replacement? ref = some replacement →
      replacement = .mk (.parameter ref) [] false) : type.substitute substitution = type := by
  induction plain with
  | classifier each ih =>
    refine substitute_mk_classifier_eq_iff.2 fun variance type listed =>
      ih variance type listed fun ref hr => ?_
    exact itself ref (mem_parameters_mk.2 (.inr ⟨variance, type, listed, hr⟩))
  | @parameter ref nullable =>
    cases replaced : substitution.replacement? ref with
    | none => rw [substitute, mapParameters_mk, TypeHead.replacement?, replaced]; rfl
    | some replacement =>
      rw [substitute_mk_parameter replaced, itself ref (by simp) _ replaced]
      cases nullable <;> rfl

/-! ## Unchanged types -/

/-- In a type that is not changed, each parameter is replaced by itself or by its nullable form. -/
theorem replacement_of_substitute_eq (plain : type.Unapplied)
    (unchanged : type.substitute substitution = type) (hr : ref ∈ type.parameters)
    (replaced : substitution.replacement? ref = some replacement) :
    replacement = .mk (.parameter ref) [] replacement.nullable := by
  induction plain with
  | classifier each ih =>
    obtain headed | ⟨variance, type, listed, hr⟩ := mem_parameters_mk.1 hr
    · cases headed
    · exact ih variance type listed
        (substitute_mk_classifier_eq_iff.1 unchanged variance type listed) hr
  | @parameter ref' nullable =>
    obtain rfl : ref = ref' := by simpa using hr
    rw [substitute_mk_parameter replaced] at unchanged
    obtain ⟨head, arguments, _⟩ := replacement
    cases nullable <;> simp_all [makeNullable, withNullable]

/-- In a type that is not changed, a parameter that is not marked nullable is replaced by itself. -/
theorem replacement_of_exposes (plain : type.Unapplied)
    (unchanged : type.substitute substitution = type) (exposes : type.Exposes ref)
    (replaced : substitution.replacement? ref = some replacement) :
    replacement = .mk (.parameter ref) [] false := by
  induction exposes with
  | head =>
    cases plain
    rwa [substitute_mk_parameter replaced, if_neg (by decide)] at unchanged
  | argument listed _ ih =>
    cases plain with
    | classifier each =>
      exact ih (each _ _ listed) (substitute_mk_classifier_eq_iff.1 unchanged _ _ listed)
    | parameter => cases listed

/-! ## Types as signatures show them -/

/-- A type that does not refer to the type parameters of a member looks as it is in its
signature. -/
theorem anonymize_eq_of_forall (foreign : ∀ ref ∈ type.parameters, ref.owner ≠ own) :
    type.anonymize own = type := by
  conv_rhs => rw [← mapParameters_none type]
  exact mapParameters_congr fun ref hr => if_neg (foreign ref hr)

/-- A substitution that has nothing to do with a member changes no type that looks the same in its
signature. -/
theorem substitute_eq_of_anonymize_eq {bound : DeclId} (foreign : substitution.Foreign own bound)
    (plain : type.Unapplied)
    (same : (type.substitute substitution).anonymize own = type.anonymize own) :
    type.substitute substitution = type := by
  induction plain with
  | @classifier id arguments nullable each ih =>
    refine substitute_mk_classifier_eq_iff.2 fun variance type listed => ih variance type listed ?_
    rw [anonymize, anonymize, substitute, mapParameters_mapParameters, mapParameters_mk,
      mapParameters_mk] at same
    rw [anonymize, anonymize, substitute, mapParameters_mapParameters]
    exact mapArguments_eq_iff.1 (Ty.mk.inj same).2.1 variance type listed
  | @parameter ref nullable =>
    cases replaced : substitution.replacement? ref with
    | none => rw [substitute, mapParameters_mk, TypeHead.replacement?, replaced]; rfl
    | some replacement =>
      have other : ref.owner ≠ own := by
        rintro rfl
        have unreplaced : substitution.replacement? ref = none := foreign.unreplaced ref.index
        rw [unreplaced] at replaced
        cases replaced
      have unmentioned := foreign.unmentioned replaced
      rw [substitute_mk_parameter replaced] at same ⊢
      rwa [anonymize_eq_of_forall (by split <;> simpa using unmentioned),
        anonymize_eq_of_forall (by simpa using other)] at same

end ClassSymbols.Ty
