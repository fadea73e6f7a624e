import ClassSymbols.Proofs.Scope.Unfolding
import ClassSymbols.Proofs.Subtyping.Steps

/-!
# Instantiation of type parameters

What replaces type parameters in two types replaces them in the supertypes and in the arguments that
a comparison meets, so each step of the comparison can be made again. Two things can go wrong. A
parameter that a listed supertype mentions and that is not one of the class, or that the type has no
argument for, is left alone where the type is seen as its supertype, and is then not there to be
replaced in the type itself. And a parameter counts as not nullable below the root, while what
replaces it may be nullable.

## Main definitions

* `Store.Survives` — whether a substitution does not change what a single step of a comparison rests
  on.

## Main statements

* `Ty.seenFrom_substitute` — what is listed for an instantiated type.
* `Store.belowWithin_substitute`, `holds_hierarchy_substitute` — a comparison with types
  instantiated.
* `forall_holds_substitute_iff` — the substitutions that all comparisons survive.
-/

namespace ClassSymbols

open Relation

namespace Ty

/-- Whether a type is nullable does not matter to what its parameters are replaced by. -/
theorem mapParameters_withNullable (type : Ty) (f : ParameterRef → Option Ty)
    (before after : Bool) :
    ((type.withNullable before).mapParameters f).withNullable after =
      (type.mapParameters f).withNullable after := by
  obtain ⟨head, arguments, nullable⟩ := type
  change ((Ty.mk head arguments before).mapParameters f).withNullable after = _
  rw [mapParameters_mk, mapParameters_mk]
  cases head.replacement? f with
  | none => rfl
  | some replacement => cases before <;> cases nullable <;> rfl

/-- The classes of types do not change when their parameters are replaced. -/
theorem classId?_substitute {type : Ty} {id : ClassId} (h : type.classId? = some id)
    (substitution : Substitution) : (type.substitute substitution).classId? = some id :=
  classId?_mapParameters h

theorem nullable_substitute {type : Ty} {id : ClassId} (h : type.classId? = some id)
    (substitution : Substitution) :
    (type.substitute substitution).nullable = type.nullable := by
  rw [substitute, mapParameters_of_classId? h]
  rfl

theorem arguments_substitute {type : Ty} {id : ClassId} (h : type.classId? = some id)
    (substitution : Substitution) :
    (type.substitute substitution).arguments =
      type.arguments.map (TypeArgument.mapParameters substitution.replacement?) := by
  rw [substitute, mapParameters_of_classId? h]
  rfl

/-- A substitution by types that are not nullable makes nothing nullable. -/
theorem nullable_substitute_of_plain {substitution : Substitution}
    (plain : ∀ ref type, substitution.replacement? ref = some type → type.nullable = false)
    (type : Ty) :
    (type.substitute substitution).nullable = type.nullable := by
  obtain ⟨head, arguments, nullable⟩ := type
  rw [substitute, mapParameters_mk]
  cases head with
  | classifier => rfl
  | parameter ref =>
    simp only [TypeHead.replacement?]
    cases replaced : substitution.replacement? ref with
    | none => rfl
    | some replacement =>
      cases nullable with
      | true => rfl
      | false => exact plain ref replacement replaced

end Ty

/-- An instantiated type puts instantiated types in the place of the parameters of its class. -/
theorem Substitution.replacement?_ofSupertype_substitute {type : Ty} {k : ClassId}
    (named : type.classId? = some k) (substitution : Substitution) (id : DeclId)
    (ref : ParameterRef) :
    (ofSupertype id (type.substitute substitution)).replacement? ref =
      ((ofSupertype id type).replacement? ref).map (·.substitute substitution) := by
  have replaced (argument : TypeArgument) :
    replacementOfArgument (argument.mapParameters substitution.replacement?) =
      (replacementOfArgument argument).substitute substitution := by cases argument <;> rfl
  rw [replacement?, replacement?, get?_ofSupertype, get?_ofSupertype, Ty.arguments_substitute named,
    List.getElem?_map]
  split
  · simp [Function.comp_def, replaced]
  · rfl

/-- What is listed for an instantiated type is the instance of what is listed for the type, up to
nullability. -/
theorem Ty.seenFrom_substitute {listed type : Ty} {k : ClassId} {id : DeclId}
    {substitution : Substitution} (named : type.classId? = some k)
    (filled : ∀ ref ∈ listed.parameters, (substitution.replacement? ref).isSome →
      ref.owner = id ∧ ref.index < type.arguments.length) :
    listed.seenFrom id (type.substitute substitution) =
      ((listed.seenFrom id type).substitute substitution).withNullable type.nullable := by
  have seen : listed.substitute (.ofSupertype id (type.substitute substitution)) =
      (listed.substitute (.ofSupertype id type)).substitute substitution := by
    change listed.mapParameters _ = (listed.mapParameters _).mapParameters _
    rw [mapParameters_mapParameters]
    refine mapParameters_congr fun ref hr => ?_
    rw [Substitution.replacement?_ofSupertype_substitute named, andThen]
    cases own : (Substitution.ofSupertype id type).replacement? ref with
    | some replacement => rfl
    | none =>
      -- a parameter without an argument is not replaced
      refine (Option.not_isSome_iff_eq_none.1 fun replaced => ?_).symm
      obtain ⟨same, within⟩ := filled ref hr replaced
      rw [Substitution.replacement?, Substitution.get?_ofSupertype, if_pos same] at own
      simp [List.getElem?_eq_getElem within] at own
  rw [seenFrom, seen, nullable_substitute named]
  exact (mapParameters_withNullable _ _ _ _).symm

namespace Store

variable {store : Store} {substitution : Substitution} {room : Nat} {sub sup : Ty}

/-- Whether a substitution does not change what a comparison of two types rests on at once: if
something not nullable is compared with the root, then it stays so, and if a supertype is below,
then the parameters that are replaced in it have arguments in the type. -/
structure Survives (store : Store) (substitution : Substitution) (sub sup : Ty) : Prop where
  root : sup.isAny = true → sup.nullable = false → sub.nullable = false →
    (sub.substitute substitution).nullable = false
  filled : ∀ {k l id listed}, sub.classId? = some k → sup.classId? = some l → k ≠ l →
    store.Lists k id listed →
    store.Below (listed.seenFrom id sub) sup →
      ∀ ref ∈ listed.parameters, (substitution.replacement? ref).isSome →
      ref.owner = id ∧ ref.index < sub.arguments.length

/-- Types that are below one another stay so when their parameters are replaced, in as many steps,
if each comparison that this rests on survives it. -/
theorem belowWithin_substitute
    (survives : ∀ x y, ReflTransGen store.RestsOn (sub, sup) (x, y) →
      store.Survives substitution x y)
    (h : store.belowWithin room sub sup = true) :
    store.belowWithin room (sub.substitute substitution) (sup.substitute substitution) = true := by
  induction room generalizing sub sup with
  | zero => exact Ty.structurallyBelow_mapParameters _ h
  | succ room ih =>
    have here := survives sub sup .refl
    have step : store.Accepts (fun x y => store.Below x y ∧
        store.belowWithin room (x.substitute substitution) (y.substitute substitution) = true) sub
          sup := by
      refine (belowWithin_succ_iff.1 h).compares fun next h => ?_
      have below : store.Below _ _ := ⟨room, h⟩
      exact ⟨below, ih (fun x y reached => survives x y (.head ⟨next, below⟩ reached)) h⟩
    cases step with
    | structural h =>
      exact belowWithin_of_structurallyBelow (Ty.structurallyBelow_mapParameters _ h)
    | root root plain =>
      have root' : (sup.substitute substitution).isAny = true :=
        Ty.isAny_iff.2 (Ty.classId?_substitute (Ty.isAny_iff.1 root) substitution)
      cases top : sup.nullable with
      | true =>
        have top' : (sup.substitute substitution).nullable = true := Ty.nullable_mapParameters top
        exact belowWithin_of_structurallyBelow
          (Ty.structurallyBelow_iff.2 ⟨fun _ => top', .inr (.inl ⟨root', top'⟩)⟩)
      | false => exact belowWithin_succ_iff.2 (.root root' (here.root root top plain))
    | arguments hsub hsup le fits =>
      refine belowWithin_succ_iff.2
        (.arguments (Ty.classId?_substitute hsub _) (Ty.classId?_substitute hsup _) ?_ ?_)
      · rwa [Ty.nullable_substitute hsub, Ty.nullable_substitute hsup]
      · rw [Ty.arguments_substitute hsub, Ty.arguments_substitute hsup, List.forall₂_map_left_iff,
          List.forall₂_map_right_iff]
        refine fits.imp fun a b fits => ?_
        cases fits with
        | star => exact .star _
        | covariant other h => exact .covariant other h.2
        | contravariant other h => exact .contravariant other h.2
        | same type => exact .same _
    | supertype hsub hsup apart le mem h =>
      obtain ⟨below, h⟩ := h
      obtain ⟨k, owner, listed, named, lists, rfl⟩ := mem_supertypesOf_iff.1 mem
      obtain rfl := Option.some.inj (named.symm.trans hsub)
      have seen := Ty.seenFrom_substitute hsub (here.filled hsub hsup apart lists below)
      have mem' :=
        mem_supertypesOf_iff.2 ⟨_, owner, listed, Ty.classId?_substitute hsub substitution, lists,
          seen⟩
      have le' : sub.nullable = true → (sup.substitute substitution).nullable = true :=
        fun nullable =>
        (Ty.nullable_substitute hsup substitution).trans (le nullable)
      have h' := belowWithin_withNullable h le' fun _ _ => id
      rw [Ty.withNullable_self] at h'
      refine belowWithin_succ_iff.2
        (.supertype (Ty.classId?_substitute hsub _) (Ty.classId?_substitute hsup _) apart ?_ mem'
          h')
      rwa [Ty.nullable_substitute hsub]

end Store

/-- A type that is accepted for another one by way of supertypes stays accepted in an instantiation,
if each accepted comparison that this rests on survives the instantiation: no type parameter that is
made nullable is compared with the root that is not nullable, and the parameters that are replaced
in listed supertypes have arguments. -/
theorem holds_hierarchy_substitute {store : Store} {substitution : Substitution} {a b : Ty}
    (survives : ∀ x y, ReflTransGen store.RestsOn (a, b) (x, y) → store.Survives substitution x y)
    (h : TypeRelation.hierarchy.holds store a b = true) :
    TypeRelation.hierarchy.holds store (a.substitute substitution) (b.substitute substitution) =
      true :=
  Store.belowWithin_substitute survives h

/-- A crate of a type parameter is below a box of it that may be nullable, and stays so where the
parameter stands for a nullable type. -/
theorem holds_hierarchy_substitute_nullable :
    let store := Store.empty.receive ⟨3⟩ crates
    let parameter := Ty.ofParameter ⟨9⟩ 0 "R"
    let crate := Ty.applied "Crate" (.invariant parameter)
    let box := Ty.applied "Box" (.projected .covariant parameter.makeNullable)
    let substitution : Substitution := .ofList [((⟨9⟩, 0), (Ty.ofClass .int).makeNullable)]
    TypeRelation.hierarchy.holds store crate box = true ∧
      TypeRelation.hierarchy.holds store (crate.substitute substitution)
        (box.substitute substitution) = true := by
  intro store parameter crate box substitution
  have accepted : TypeRelation.hierarchy.holds store crate box = true := by decide
  have survives : ∀ x y, ReflTransGen store.RestsOn (crate, box) (x, y) →
      store.Survives substitution x y := by
    intro x y reached
    let inner := Ty.applied "Box" (.invariant parameter)
    have mem : (x, y) ∈ [(crate, box), (inner, box), (parameter, parameter.makeNullable)] :=
    Store.mem_of_reflTransGen_restsOn (by decide) List.mem_cons_self reached
    have each : ∀ pair ∈ [(crate, box), (inner, box), (parameter, parameter.makeNullable)],
        pair.2.isAny = false := by
      decide
    refine ⟨fun root => ?_, fun _ _ _ lists _ ref hr replaced => ?_⟩
    · rw [each _ mem] at root
      cases root
    · -- no class lists what is replaced
      have unlisted : ∀ declaration ∈ crates,
        ∀ data ∈ declaration.class?, ∀ supertype ∈ data.supertypes,
          ∀ ref ∈ supertype.parameters, substitution.replacement? ref = none := by decide
      rw [lists.of_declared unlisted ref hr] at replaced
      cases replaced
  exact ⟨accepted, holds_hierarchy_substitute survives accepted⟩

/-- Let the members of a class be generic in parameters that no listed supertype mentions. A
substitution of such parameters is survived by all comparisons if and only if it makes none of them
nullable. -/
theorem forall_holds_substitute_iff {store : Store} {substitution : Substitution}
    (unlisted : ∀ {k id listed}, store.Lists k id listed →
      ∀ ref ∈ listed.parameters, substitution.replacement? ref = none) :
    (∀ a b, TypeRelation.hierarchy.holds store a b = true →
      TypeRelation.hierarchy.holds store (a.substitute substitution) (b.substitute substitution) =
        true) ↔
    ∀ ref type, substitution.replacement? ref = some type → type.nullable = false := by
  constructor
  · intro stable ref type replaced
    have accepted : store.belowWithin (127 + 1) (.mk (.parameter ref) [] false) (.ofClass .any) =
        true := Store.belowWithin_succ_iff.2 (.root rfl rfl)
    have instantiated : (Ty.mk (.parameter ref) [] false).substitute substitution = type := by
      rw [Ty.substitute, Ty.mapParameters_mk]
      simp [TypeHead.replacement?, replaced]
    have still := stable (.mk (.parameter ref) [] false) (.ofClass .any) accepted
    rw [instantiated] at still
    refine Bool.eq_false_iff.2 fun nullable => ?_
    cases Store.nullable_of_belowWithin still nullable
  · intro plain a b h
    refine Store.belowWithin_substitute
      (fun x y _ => ⟨fun _ _ same => ?_, fun _ _ _ lists _ ref hr replaced => ?_⟩) h
    · rw [Ty.nullable_substitute_of_plain plain, same]
    · simp [unlisted lists ref hr] at replaced

/-- A class with a type parameter, and a class inside it that lists a supertype applied to that
parameter. -/
def captured : List Declaration :=
  [.genericClass ⟨1⟩ "Outer" [],
    { id := ⟨2⟩, name := "Inner", container := some ⟨1⟩, kind := .classifier {
        classId := ⟨"", "Outer.Inner", false⟩
        supertypes := [.applied "Box" (.invariant (.ofParameter ⟨1⟩ 0 "T"))] } }]

/-- The type of the inner class does not mention the parameter, so it stays as it is when the
parameter of its supertype is replaced. -/
theorem not_forall_holds_substitute :
    ¬∀ (store : Store) (a b : Ty) (substitution : Substitution), store.Shallow 32 → a.nesting ≤ 32 →
      b.nesting ≤ 32 →
      (∀ ref type, substitution.replacement? ref = some type → type.nesting ≤ 32) →
      TypeRelation.hierarchy.holds store a b = true →
      TypeRelation.hierarchy.holds store (a.substitute substitution) (b.substitute substitution) =
        true := by
  intro claim
  let store := Store.empty.receive ⟨3⟩ captured
  let inner := Ty.ofClass ⟨"", "Outer.Inner", false⟩
  let box := Ty.applied "Box" (.invariant (.ofParameter ⟨1⟩ 0 "T"))
  let substitution : Substitution := .ofList [((⟨1⟩, 0), .ofClass .int)]
  have ranked : store.Ranked fun k => if k.relative = "Outer.Inner" then 1 else 0 := by decide
  have shallow : store.Shallow 32 := ranked.shallow fun k => by split <;> decide
  have flat : ∀ ref type, substitution.replacement? ref = some type → type.nesting ≤ 32 := by
    intro ref type replaced
    obtain ⟨-, rfl⟩ : (⟨1⟩, 0) = (ref.owner, ref.index) ∧ Ty.ofClass .int = type := by
      simpa [substitution, Substitution.replacement?, OrderedMap.ofList] using replaced
    decide
  have refused : TypeRelation.hierarchy.holds store (inner.substitute substitution)
      (box.substitute substitution) ≠ true := by
    decide
  exact refused
    (claim store inner box substitution shallow (by decide) (by decide) flat (by decide))

end ClassSymbols
