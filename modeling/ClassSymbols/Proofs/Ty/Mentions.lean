import ClassSymbols.Overrides.Signature
import ClassSymbols.Proofs.Data.Grouping
import ClassSymbols.Proofs.Ty.Renaming

/-!
# Classes that types mention

A replacement of type parameters brings only classes that the replacing types mention.

## Main definitions

* `Ty.classIds` — the classes that a type mentions.
* `Ty.Within`, `Substitution.Within` — whether a type mentions only classes of a set.

## Main statements

* `Ty.mem_classIds_mapParameters` — the classes that a type mentions after a replacement.
* `Ty.Within.substitute`, `Substitution.Within.ofSupertype` — the classes that a type mentions as a
  subclass sees it.
-/

namespace ClassSymbols

def TypeHead.classIds : TypeHead → List ClassId
  | .classifier id => [id]
  | .parameter _ => []

mutual
/-- The classes that a type mentions, as what it is built on or in its arguments. -/
def Ty.classIds : Ty → List ClassId
  | .mk head arguments _ => head.classIds ++ TypeArgument.classIdsList arguments

def TypeArgument.classIdsList : List TypeArgument → List ClassId
  | [] => []
  | argument :: rest => TypeArgument.classIds argument ++ TypeArgument.classIdsList rest

def TypeArgument.classIds : TypeArgument → List ClassId
  | .star => []
  | .projected _ type => Ty.classIds type
end

variable {id : ClassId}

theorem TypeArgument.mem_classIdsList_iff {arguments : List TypeArgument} :
    id ∈ classIdsList arguments ↔
      ∃ variance type, .projected variance type ∈ arguments ∧ id ∈ type.classIds := by
  induction arguments with
  | nil => simp [classIdsList]
  | cons argument rest ih =>
    rw [classIdsList, List.mem_append, ih]
    cases argument with
    | star => simp [classIds]
    | projected variance type =>
      simp only [classIds, List.mem_cons]
      grind

namespace Ty

variable {g : ParameterRef → Option Ty} {type : Ty}

theorem mem_classIds_mk {head : TypeHead} {arguments : List TypeArgument} {nullable : Bool} :
    id ∈ (Ty.mk head arguments nullable).classIds ↔ id ∈ head.classIds ∨
      ∃ variance type, .projected variance type ∈ arguments ∧ id ∈ type.classIds := by
  rw [classIds, List.mem_append, TypeArgument.mem_classIdsList_iff]

@[simp] theorem classIds_withNullable (type : Ty) (nullable : Bool) :
    (type.withNullable nullable).classIds = type.classIds := by
  obtain ⟨head, arguments, nullable⟩ := type
  rfl

@[simp] theorem classIds_makeNullable (type : Ty) : type.makeNullable.classIds = type.classIds :=
  classIds_withNullable type true

theorem mem_classIds_of_classId? (h : type.classId? = some id) : id ∈ type.classIds := by
  obtain ⟨head, arguments, nullable⟩ := type
  cases head with
  | classifier other =>
    obtain rfl : other = id := Option.some.inj h
    exact mem_classIds_mk.2 (.inl List.mem_cons_self)
  | parameter ref => cases h

theorem mem_classIds_of_argument {variance : Variance} {argument : Ty}
    (ha : .projected variance argument ∈ type.arguments) (hid : id ∈ argument.classIds) :
    id ∈ type.classIds := by
  obtain ⟨head, arguments, nullable⟩ := type
  exact mem_classIds_mk.2 (.inr ⟨variance, argument, ha, hid⟩)

/-- A renaming of declarations does not change which classes a type mentions. -/
@[simp] theorem mem_classIds_rename (f : DeclId → DeclId) (type : Ty) :
    id ∈ (type.rename f).classIds ↔ id ∈ type.classIds := by
  induction type using Ty.induction with
  | step head arguments nullable ih =>
    have same : (head.rename f).classIds = head.classIds := by cases head <;> rfl
    rw [rename_mk, mem_classIds_mk, mem_classIds_mk, same]
    refine or_congr_right ⟨?_, ?_⟩
    · rintro ⟨variance, _, renamed, hid⟩
      obtain ⟨argument, ha, e⟩ := List.mem_map.1 renamed
      cases argument with
      | star => cases e
      | projected variance' type =>
        obtain ⟨rfl, rfl⟩ := TypeArgument.projected.inj e
        exact ⟨variance', type, ha, (ih variance' type ha).1 hid⟩
    · rintro ⟨variance, type, ha, hid⟩
      exact ⟨variance, type.rename f, List.mem_map_of_mem ha, (ih variance type ha).2 hid⟩

/-- After a replacement, a type mentions what it mentioned before and what the replacing types
mention. -/
theorem mem_classIds_mapParameters (h : id ∈ (type.mapParameters g).classIds) :
    id ∈ type.classIds ∨
      ∃ ref replacement, g ref = some replacement ∧ id ∈ replacement.classIds := by
  induction type using Ty.induction with
  | step head arguments nullable ih =>
    rw [mapParameters_mk] at h
    cases replaced : head.replacement? g with
    | some replacement =>
      rw [replaced] at h
      cases head with
      | classifier => cases replaced
      | parameter ref =>
        refine .inr ⟨ref, replacement, replaced, ?_⟩
        cases nullable <;> simpa using h
    | none =>
      rw [replaced] at h
      rcases mem_classIds_mk.1 h with hh | ⟨variance, type, ha, hid⟩
      · exact .inl (mem_classIds_mk.2 (.inl hh))
      · obtain ⟨argument, listed, e⟩ := List.mem_map.1 ha
        cases argument with
        | star => cases e
        | projected variance' type' =>
          obtain ⟨rfl, rfl⟩ := TypeArgument.projected.inj e
          refine (ih variance' type' listed hid).imp_left fun hid => ?_
          exact mem_classIds_mk.2 (.inr ⟨variance', type', listed, hid⟩)

theorem mem_classIds_anonymize {own : DeclId} (h : id ∈ (type.anonymize own).classIds) :
    id ∈ type.classIds := by
  rcases mem_classIds_mapParameters h with h | ⟨ref, replacement, replaced, h⟩
  · exact h
  · split at replaced
    · obtain rfl := Option.some.inj replaced
      cases h
    · cases replaced

end Ty

/-! ## Sets of classes -/

def Ty.Within (K : ClassId → Prop) (type : Ty) : Prop := ∀ k ∈ type.classIds, K k

def Substitution.Within (K : ClassId → Prop) (substitution : Substitution) : Prop :=
  ∀ ref type, substitution.replacement? ref = some type → type.Within K

section Within

variable {K : ClassId → Prop} {type : Ty}

theorem Ty.Within.argument (h : type.Within K) {variance : Variance} {argument : Ty}
    (ha : .projected variance argument ∈ type.arguments) : argument.Within K :=
  fun k hk => h k (mem_classIds_of_argument ha hk)

theorem Ty.Within.anonymize (h : type.Within K) (own : DeclId) : (type.anonymize own).Within K :=
  fun k hk => h k (mem_classIds_anonymize hk)

/-- After a substitution, a type mentions what it mentioned before and what the substitution
brings. -/
theorem Ty.Within.substitute (h : type.Within K) {substitution : Substitution}
    (hs : substitution.Within K) :
    (type.substitute substitution).Within K := by
  intro k hk
  rcases mem_classIds_mapParameters hk with hk | ⟨ref, replacement, replaced, hk⟩
  · exact h k hk
  · exact hs ref replacement replaced k hk

theorem Substitution.Within.identity : Substitution.identity.Within K :=
  fun _ _ replaced => nomatch replaced

/-- A type that a substitution of a supertype brings is an argument of the supertype, or the one
above all others. -/
theorem Substitution.Within.ofSupertype (h : type.Within K) (any : K .any) (owner : DeclId) :
    (Substitution.ofSupertype owner type).Within K := by
  intro ref replacement replaced
  rw [replacement?, get?_ofSupertype] at replaced
  split at replaced
  · obtain ⟨argument, listed, rfl⟩ := Option.map_eq_some_iff.1 replaced
    cases argument with
    | star =>
      intro k hk
      obtain rfl : k = .any := List.mem_singleton.1 hk
      exact any
    | projected variance argument => exact h.argument (List.mem_of_getElem? listed)
  · cases replaced

theorem Substitution.Within.insert_ofParameter {substitution : Substitution}
    (h : substitution.Within K) (key : DeclId × Nat) (owner : DeclId) (index : Nat)
    (name : String) :
    Substitution.Within K (OrderedMap.insert substitution key (.ofParameter owner index name)) := by
  intro ref replacement replaced
  rw [replacement?, OrderedMap.get?_insert] at replaced
  split at replaced
  · obtain rfl := Option.some.inj replaced
    exact fun k hk => absurd hk List.not_mem_nil
  · exact h ref replacement replaced

end Within

end ClassSymbols
