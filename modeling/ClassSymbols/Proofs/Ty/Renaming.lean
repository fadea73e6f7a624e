import ClassSymbols.Proofs.Ty.Substitution
import Mathlib.Logic.Function.Basic

/-!
# Renaming declarations in types

A type refers to declarations only as the owners of type parameters. What is computed from types
commutes with a renaming of the declarations, and comparisons of types are not affected by a
renaming that identifies nothing.

## Main definitions

* `Ty.rename` — a type in which the owners of parameters are renamed.
* `Substitution.Renames` — whether a substitution is another one after a renaming.

## Main statements

* `Ty.rename_inj` — renaming identifies no two types.
* `Ty.rename_mapParameters`, `Substitution.Renames.rename_substitute` — renaming commutes with
  replacement.
* `Substitution.Renames.ofSupertype` — the substitution of a renamed supertype.
-/

namespace ClassSymbols

variable (f : DeclId → DeclId)

def ParameterRef.rename (ref : ParameterRef) : ParameterRef := { ref with owner := f ref.owner }

def TypeHead.rename : TypeHead → TypeHead
  | .classifier id => .classifier id
  | .parameter ref => .parameter (ref.rename f)

mutual
def Ty.rename : Ty → Ty
  | .mk head arguments nullable =>
    .mk (head.rename f) (TypeArgument.renameList arguments) nullable

def TypeArgument.renameList : List TypeArgument → List TypeArgument
  | [] => []
  | argument :: rest => TypeArgument.rename argument :: TypeArgument.renameList rest

def TypeArgument.rename : TypeArgument → TypeArgument
  | .star => .star
  | .projected variance type => .projected variance (Ty.rename type)
end

@[simp] theorem TypeArgument.rename_star : star.rename f = star := rfl

@[simp] theorem TypeArgument.rename_projected (variance : Variance) (type : Ty) :
    (projected variance type).rename f = .projected variance (type.rename f) := rfl

theorem TypeArgument.renameList_eq_map (arguments : List TypeArgument) :
    renameList f arguments = arguments.map (TypeArgument.rename f) := by
  induction arguments with
  | nil => rfl
  | cons argument rest ih => rw [renameList, ih, List.map_cons]

@[simp] theorem Ty.rename_mk (head : TypeHead) (arguments : List TypeArgument) (nullable : Bool) :
    (Ty.mk head arguments nullable).rename f =
      .mk (head.rename f) (arguments.map (TypeArgument.rename f)) nullable := by
  rw [rename, TypeArgument.renameList_eq_map]

namespace Ty

variable (type : Ty)

@[simp] theorem head_rename : (type.rename f).head = type.head.rename f := by
  cases type
  simp

@[simp] theorem arguments_rename :
    (type.rename f).arguments = type.arguments.map (TypeArgument.rename f) := by
  cases type
  simp

@[simp] theorem nullable_rename : (type.rename f).nullable = type.nullable := by
  cases type
  simp

@[simp] theorem rename_withNullable (nullable : Bool) :
    (type.withNullable nullable).rename f = (type.rename f).withNullable nullable := by
  simp [withNullable]

@[simp] theorem rename_makeNullable : type.makeNullable.rename f = (type.rename f).makeNullable :=
  rename_withNullable f type true

@[simp] theorem rename_withArguments (arguments : List TypeArgument) :
    (type.withArguments arguments).rename f =
      (type.rename f).withArguments (arguments.map (TypeArgument.rename f)) := by
  simp [withArguments]

@[simp] theorem rename_ofClass (id : ClassId) : (ofClass id).rename f = ofClass id := by
  simp [ofClass, TypeHead.rename]

@[simp] theorem rename_ofParameter (owner : DeclId) (index : Nat) (name : String) :
    (ofParameter owner index name).rename f = ofParameter (f owner) index name := by
  simp [ofParameter, TypeHead.rename, ParameterRef.rename]

@[simp] theorem rename_nullableAny : nullableAny.rename f = nullableAny := by simp [nullableAny]

@[simp] theorem classId?_rename : (type.rename f).classId? = type.classId? := by
  cases type with
  | mk head arguments nullable => cases head <;> simp [classId?, TypeHead.rename]

@[simp] theorem isNothing_rename : (type.rename f).isNothing = type.isNothing := by simp [isNothing]

@[simp] theorem isAny_rename : (type.rename f).isAny = type.isAny := by simp [isAny]

/-- The text of a type names no owners. -/
theorem display_rename (type : Ty) : (type.rename f).display = type.display := by
  induction type using Ty.induction with
  | step head arguments nullable ih =>
    have heads : (head.rename f).display = head.display := by cases head <;> rfl
    have others : TypeArgument.displayList (arguments.map (TypeArgument.rename f)) =
        TypeArgument.displayList arguments := by
      induction arguments with
      | nil => rfl
      | cons argument rest rest_ih =>
        have first : (argument.rename f).display = argument.display := by
          cases argument with
          | star => rfl
          | projected variance type =>
            exact congrArg (variance.display ++ ·) (ih variance type List.mem_cons_self)
        rw [List.map_cons, TypeArgument.displayList, TypeArgument.displayList, first,
          rest_ih fun variance type ha => ih variance type (List.mem_cons_of_mem _ ha)]
    rw [rename_mk, display, display, heads, List.isEmpty_map, others]

end Ty

/-! ## Comparison -/

section Injective

variable {f : DeclId → DeclId} (injective : Function.Injective f)
include injective

theorem ParameterRef.rename_inj {a b : ParameterRef} : a.rename f = b.rename f ↔ a = b := by
  refine ⟨fun e => ?_, congrArg _⟩
  obtain ⟨owner, index, name⟩ := a
  obtain ⟨owner', index', name'⟩ := b
  obtain ⟨owners, rfl, rfl⟩ := ParameterRef.mk.inj e
  obtain rfl := injective owners
  rfl

theorem TypeHead.rename_inj {a b : TypeHead} : a.rename f = b.rename f ↔ a = b := by
  cases a <;> cases b <;> simp [rename, ParameterRef.rename_inj injective]

/-- Renaming identifies no two types. -/
theorem Ty.rename_inj {a b : Ty} : a.rename f = b.rename f ↔ a = b := by
  refine ⟨fun e => ?_, congrArg _⟩
  induction a using Ty.induction generalizing b with
  | step head arguments nullable ih =>
    obtain ⟨head', arguments', nullable'⟩ := b
    rw [rename_mk, rename_mk] at e
    obtain ⟨heads, lists, rfl⟩ := Ty.mk.inj e
    obtain rfl := (TypeHead.rename_inj injective).1 heads
    clear e heads
    congr 1
    induction arguments generalizing arguments' with
    | nil => exact (List.map_eq_nil_iff.1 lists.symm).symm
    | cons argument rest rest_ih =>
      obtain ⟨argument', rest', rfl, first, others⟩ := List.map_eq_cons_iff.1 lists.symm
      have same : argument = argument' := by
        cases argument <;> cases argument' <;>
          simp only [TypeArgument.rename_star, TypeArgument.rename_projected, reduceCtorEq] at first
        · rfl
        · obtain ⟨rfl, types⟩ := TypeArgument.projected.inj first
          rw [ih _ _ List.mem_cons_self types.symm]
      rw [same, rest_ih (fun variance type ha => ih variance type (List.mem_cons_of_mem _ ha)) rest'
        others.symm]

end Injective

/-! ## Replacement -/

section Replacement

variable {f : DeclId → DeclId}

/-- Renaming commutes with the replacement of parameters. -/
theorem Ty.rename_mapParameters {g g' : ParameterRef → Option Ty}
    (renames : ∀ ref, g' (ref.rename f) = (g ref).map (Ty.rename f)) (type : Ty) :
    (type.mapParameters g).rename f = (type.rename f).mapParameters g' := by
  induction type using Ty.induction with
  | step head arguments nullable ih =>
    have heads : (head.rename f).replacement? g' = (head.replacement? g).map (Ty.rename f) := by
      cases head with
      | classifier => rfl
      | parameter ref => exact renames ref
    have others : (arguments.map (TypeArgument.mapParameters g)).map (TypeArgument.rename f) =
        (arguments.map (TypeArgument.rename f)).map (TypeArgument.mapParameters g') := by
      rw [List.map_map, List.map_map]
      refine List.map_congr_left fun argument ha => ?_
      cases argument with
      | star => rfl
      | projected variance type =>
        exact congrArg (TypeArgument.projected variance) (ih variance type ha)
    rw [rename_mk, mapParameters_mk, mapParameters_mk, heads]
    cases head.replacement? g with
    | none => rw [Option.map_none, rename_mk, others]
    | some replacement => cases nullable <;> simp

namespace Substitution

def Renames (f : DeclId → DeclId) (substitution renamed : Substitution) : Prop :=
  ∀ ref : ParameterRef, renamed.replacement? (ref.rename f) =
    (substitution.replacement? ref).map (Ty.rename f)

variable {substitution renamed : Substitution}

theorem Renames.identity : Renames f identity identity := fun _ => rfl

theorem Renames.rename_substitute (h : Renames f substitution renamed) (type : Ty) :
    (type.substitute substitution).rename f = (type.rename f).substitute renamed :=
  Ty.rename_mapParameters h type

variable (injective : Function.Injective f)
include injective

theorem Renames.insert (h : Renames f substitution renamed) (owner : DeclId) (index : Nat)
    (type : Ty) :
    Renames f (substitution.insert (owner, index) type)
      (renamed.insert (f owner, index) (type.rename f)) := by
  intro ref
  have old := h ref
  have keys : (f owner, index) = (f ref.owner, ref.index) ↔
      (owner, index) = (ref.owner, ref.index) := by
    rw [Prod.mk.injEq, Prod.mk.injEq, injective.eq_iff]
  simp only [replacement?, ParameterRef.rename, OrderedMap.get?_insert, keys] at old ⊢
  split
  · rfl
  · exact old

/-- The substitution of a renamed supertype is that of the supertype after the renaming. -/
theorem Renames.ofSupertype (owner : DeclId) (supertype : Ty) :
    Renames f (ofSupertype owner supertype) (ofSupertype (f owner) (supertype.rename f)) := by
  have replaced (argument : TypeArgument) :
      replacementOfArgument (argument.rename f) = (replacementOfArgument argument).rename f := by
    cases argument <;> simp [replacementOfArgument]
  intro ref
  simp only [replacement?, get?_ofSupertype, ParameterRef.rename, injective.eq_iff,
    Ty.arguments_rename, List.getElem?_map, Option.map_map, Function.comp_def, replaced]
  split <;> simp [Function.comp_def]

end Substitution

end Replacement

end ClassSymbols
