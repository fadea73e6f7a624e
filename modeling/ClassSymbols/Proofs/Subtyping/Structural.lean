import ClassSymbols.Overrides.Signature
import ClassSymbols.Proofs.Ty.Parameters

/-!
# Subtyping by structure, and override checks

Up to the class without values and the root, a type is structurally below itself and its nullable
form only. So structural subtyping is transitive, and what replaces the type parameters of two types
does not matter to it. An override check compares result types, or wants them to be equal where the
inherited member is mutable; so checks compose and survive a substitution as far as the comparison
of types does.

## Main definitions

* `Signature.substitute` — a signature with a substitution applied to all its types.

## Main statements

* `Ty.structurallyBelow_iff` — structural subtyping without the overlaps of its cases.
* `Signature.check_trans`, `Signature.check_substitute` — what override checks take over from a
  comparison of types.
* `flat_relations_compose` — the laws of the two relations that do not follow supertypes.
-/

namespace ClassSymbols

namespace Ty

variable {a b c sub sup type : Ty} {f : ParameterRef → Option Ty}

/-! ## Nullability and classes -/

@[simp] theorem withNullable_withNullable (type : Ty) (before after : Bool) :
    (type.withNullable before).withNullable after = type.withNullable after := rfl

@[simp] theorem withNullable_self (type : Ty) : type.withNullable type.nullable = type := by
  cases type
  rfl

@[simp] theorem classId?_withNullable (type : Ty) (nullable : Bool) :
    (type.withNullable nullable).classId? = type.classId? := rfl

@[simp] theorem isNothing_withNullable (type : Ty) (nullable : Bool) :
    (type.withNullable nullable).isNothing = type.isNothing := rfl

@[simp] theorem isAny_withNullable (type : Ty) (nullable : Bool) :
    (type.withNullable nullable).isAny = type.isAny := rfl

theorem isNothing_iff : type.isNothing = true ↔ type.classId? = some .nothing := beq_iff_eq

theorem isAny_iff : type.isAny = true ↔ type.classId? = some .any := beq_iff_eq

/-- Types of one class with equal arguments are the same up to nullability. -/
theorem withNullable_of_classId? {id : ClassId} (ha : a.classId? = some id)
    (hb : b.classId? = some id) (same : a.arguments = b.arguments) :
    a.withNullable b.nullable = b := by
  obtain ⟨head, arguments, nullable⟩ := a
  obtain ⟨head', arguments', nullable'⟩ := b
  cases head <;> cases head' <;> simp_all [classId?, withNullable]

/-- What a class is applied to is replaced, and nothing else of a type that is built on a class. -/
theorem mapParameters_of_classId? {id : ClassId} (h : type.classId? = some id)
    (f : ParameterRef → Option Ty) :
    type.mapParameters f = .mk (.classifier id) (type.arguments.map (TypeArgument.mapParameters f))
      type.nullable := by
  obtain ⟨head, arguments, nullable⟩ := type
  cases head with
  | classifier other =>
    obtain rfl : other = id := Option.some.inj h
    rw [mapParameters_mk]
    rfl
  | parameter ref => cases h

theorem classId?_mapParameters {id : ClassId} (h : type.classId? = some id) :
    (type.mapParameters f).classId? = some id := by
  rw [mapParameters_of_classId? h]
  rfl

/-- A nullable type stays nullable when its parameters are replaced. -/
theorem nullable_mapParameters (h : type.nullable = true) :
    (type.mapParameters f).nullable = true := by
  obtain ⟨head, arguments, nullable⟩ := type
  obtain rfl : nullable = true := h
  rw [mapParameters_mk]
  cases head.replacement? f <;> rfl

/-! ## Structural subtyping -/

/-- Nothing nullable is below what is not, and then a type is below the nullable root and itself up
to nullability, and the type without values is below all. -/
theorem structurallyBelow_iff :
    sub.structurallyBelow sup = true ↔ (sub.nullable = true → sup.nullable = true) ∧
    (sub.isNothing = true ∨ (sup.isAny = true ∧ sup.nullable = true) ∨
      sub.withNullable sup.nullable = sup) := by
  obtain ⟨head, arguments, nullable⟩ := sub
  obtain ⟨head', arguments', nullable'⟩ := sup
  cases nullable <;> cases nullable' <;>
    simp [structurallyBelow, makeNullable, withNullable, or_comm, or_assoc]
  all_goals grind

theorem structurallyBelow_self (type : Ty) : type.structurallyBelow type = true := by
  simp [structurallyBelow]

theorem structurallyBelow_withNullable (type : Ty) {nullable : Bool}
    (le : type.nullable = true → nullable = true) :
    type.structurallyBelow (type.withNullable nullable) = true :=
  structurallyBelow_iff.2 ⟨le, .inr (.inr rfl)⟩

theorem structurallyBelow_trans (h : a.structurallyBelow b = true)
    (g : b.structurallyBelow c = true) :
    a.structurallyBelow c = true := by
  rw [structurallyBelow_iff] at h g ⊢
  obtain ⟨le, least | ⟨root, top⟩ | same⟩ := h
  · exact ⟨g.1 ∘ le, .inl least⟩
  · -- only the nullable root is above the nullable root
    obtain ⟨le', least | top' | same'⟩ := g
    · rw [isNothing_iff, isAny_iff.1 root] at least
      exact absurd least (by decide)
    · exact ⟨le' ∘ le, .inr (.inl top')⟩
    · rw [← same', isAny_withNullable]
      exact ⟨le' ∘ le, .inr (.inl ⟨root, le' top⟩)⟩
  · obtain ⟨le', least | top' | same'⟩ := g
    · rw [← same, isNothing_withNullable] at least
      exact ⟨le' ∘ le, .inl least⟩
    · exact ⟨le' ∘ le, .inr (.inl top')⟩
    · rw [← same, withNullable_withNullable] at same'
      exact ⟨le' ∘ le, .inr (.inr same')⟩

/-- Types that are structurally below one another stay so when their parameters are replaced. -/
theorem structurallyBelow_mapParameters (f : ParameterRef → Option Ty)
    (h : sub.structurallyBelow sup = true) :
    (sub.mapParameters f).structurallyBelow (sup.mapParameters f) = true := by
  obtain ⟨le, least | ⟨root, top⟩ | same⟩ := structurallyBelow_iff.1 h
  · rw [isNothing_iff] at least
    refine structurallyBelow_iff.2 ⟨fun nullable => nullable_mapParameters (le ?_), .inl ?_⟩
    · rwa [mapParameters_of_classId? least] at nullable
    · exact isNothing_iff.2 (classId?_mapParameters least)
  · have root := isAny_iff.2 (classId?_mapParameters (f := f) (isAny_iff.1 root))
    exact structurallyBelow_iff.2
      ⟨fun _ => nullable_mapParameters top, .inr (.inl ⟨root, nullable_mapParameters top⟩)⟩
  · cases nullable : sup.nullable with
    | true =>
      -- the replacement for a nullable reference is made nullable
      rw [← same, nullable]
      change (sub.mapParameters f).structurallyBelow (sub.makeNullable.mapParameters f) = true
      rw [mapParameters_makeNullable]
      exact structurallyBelow_withNullable _ fun _ => rfl
    | false =>
      have plain : sub.nullable = false :=
        Bool.eq_false_iff.2 fun nullable' => by simp [le nullable'] at nullable
      rw [nullable, ← plain, withNullable_self] at same
      rw [same]
      exact structurallyBelow_self _

end Ty

theorem Store.belowWithin_self (store : Store) (room : Nat) (type : Ty) :
    store.belowWithin room type type = true := by
  cases room <;> simp [belowWithin, type.structurallyBelow_self]

/-- Whether a relation accepts each type for itself. -/
def TypeRelation.Reflexive (relation : TypeRelation) : Prop :=
  ∀ (store : Store) (type : Ty), relation.holds store type type = true

/-- The relations that have names are reflexive. -/
theorem RelationKind.reflexive (kind : RelationKind) : kind.relation.Reflexive := by
  intro store type
  cases kind with
  | exact => exact beq_self_eq_true type
  | structural => exact type.structurallyBelow_self
  | hierarchy => exact store.belowWithin_self _ type

/-! ## Override checks -/

namespace Signature

variable {a b c : Signature} {relation : TypeRelation} {store : Store}

def substitute (signature : Signature) (substitution : Substitution) : Signature :=
  { signature with
    receiver := signature.receiver.map (·.substitute substitution)
    valueParameters := signature.valueParameters.map (·.substitute substitution)
    returnType := signature.returnType.substitute substitution }

theorem resultFits_iff : a.resultFits b relation store = true ↔
    (b.isVar = true → a.returnType = b.returnType) ∧
      (b.isVar = false → relation.holds store a.returnType b.returnType = true) := by
  cases mutable : b.isVar <;> simp [resultFits, mutable]

/-- What makes an override valid: the shape, mutability where it is inherited, and the result
type. -/
theorem check_eq_overridable_iff : a.check b relation store = .overridable ↔
    a.SameShape b ∧ (b.isVar = true → a.isVar = true) ∧ a.resultFits b relation store = true := by
  unfold check
  by_cases shape : a.SameShape b <;> cases b.isVar <;> cases a.isVar <;>
    cases a.resultFits b relation store <;> simp [shape]

/-- A member could override itself. -/
theorem check_self (reflexive : relation.Reflexive) (signature : Signature) (store : Store) :
    signature.check signature relation store = .overridable :=
  check_eq_overridable_iff.2 ⟨.refl signature, id,
    resultFits_iff.2 ⟨fun _ => rfl, fun _ => reflexive store signature.returnType⟩⟩

/-- A valid override of a valid override is valid if the comparison of types is transitive. -/
theorem check_trans
    (trans : ∀ {x y z}, relation.holds store x y = true → relation.holds store y z = true →
      relation.holds store x z = true)
    (h : a.check b relation store = .overridable) (g : b.check c relation store = .overridable) :
    a.check c relation store = .overridable := by
  rw [check_eq_overridable_iff, resultFits_iff] at *
  obtain ⟨shape, mutable, same, below⟩ := h
  obtain ⟨shape', mutable', same', below'⟩ := g
  refine ⟨shape.trans shape', mutable ∘ mutable', fun var => ?_, fun val => ?_⟩
  · exact (same (mutable' var)).trans (same' var)
  · cases var : b.isVar with
    | true => exact same var ▸ below' val
    | false => exact trans (below var) (below' val)

/-- A valid override stays valid after a substitution that the comparison of types survives. -/
theorem check_substitute {substitution : Substitution}
    (stable : ∀ {x y}, relation.holds store x y = true →
      relation.holds store (x.substitute substitution) (y.substitute substitution) = true)
    (h : a.check b relation store = .overridable) :
    (a.substitute substitution).check (b.substitute substitution) relation store =
      .overridable := by
  rw [check_eq_overridable_iff, resultFits_iff] at *
  obtain ⟨⟨kind, name, receiver, count, parameters⟩, mutable, same, below⟩ := h
  refine ⟨⟨kind, name, ?_, count, ?_⟩, mutable, fun var => ?_, fun val => stable (below val)⟩
  · exact congrArg (Option.map _) receiver
  · exact congrArg (List.map _) parameters
  · exact congrArg (Ty.substitute · substitution) (same var)

end Signature

/-! ## The laws of the relations that do not follow supertypes -/

/-- The two relations that do not follow supertypes are reflexive and transitive, accept nothing
nullable for what is not, and survive substitutions. So valid overrides compose, and stay valid when
one substitution is applied to both members. -/
theorem flat_relations_compose {relation : TypeRelation}
    (flat : relation = .exact ∨ relation = .structural) (store : Store) :
    (∀ a, relation.holds store a a = true) ∧
    (∀ a b c, relation.holds store a b = true → relation.holds store b c = true →
      relation.holds store a c = true) ∧
    (∀ a b, relation.holds store a b = true → a.nullable = true → b.nullable = true) ∧
    (∀ a b (substitution : Substitution), relation.holds store a b = true →
      relation.holds store (a.substitute substitution) (b.substitute substitution) = true) ∧
    (∀ a b c : Signature, a.check b relation store = .overridable →
      b.check c relation store = .overridable → a.check c relation store = .overridable) ∧
    ∀ (a b : Signature) (substitution : Substitution), a.check b relation store = .overridable →
      (a.substitute substitution).check (b.substitute substitution) relation store =
        .overridable := by
  have reflexive : relation.Reflexive := by
    rcases flat with rfl | rfl
    · exact RelationKind.exact.reflexive
    · exact RelationKind.structural.reflexive
  have trans : ∀ {a b c}, relation.holds store a b = true → relation.holds store b c = true →
      relation.holds store a c = true := by
    intro a b c h g
    rcases flat with rfl | rfl
    · exact beq_iff_eq.2 ((beq_iff_eq.1 h).trans (beq_iff_eq.1 g))
    · exact Ty.structurallyBelow_trans h g
  have nullable : ∀ {a b}, relation.holds store a b = true → a.nullable = true →
      b.nullable = true := by
    intro a b h
    rcases flat with rfl | rfl
    · exact beq_iff_eq.1 h ▸ id
    · exact (Ty.structurallyBelow_iff.1 h).1
  have stable : ∀ {a b} (substitution : Substitution), relation.holds store a b = true →
      relation.holds store (a.substitute substitution) (b.substitute substitution) = true := by
    intro a b substitution h
    rcases flat with rfl | rfl
    · exact beq_iff_eq.2 (congrArg (Ty.substitute · substitution) (beq_iff_eq.1 h))
    · exact Ty.structurallyBelow_mapParameters _ h
  exact ⟨reflexive store, fun _ _ _ => trans, fun _ _ => nullable, fun _ _ => stable,
    fun _ _ _ => Signature.check_trans trans,
    fun _ _ substitution => Signature.check_substitute (stable substitution)⟩

/-- A function without values overrides one with a type parameter for its result, which overrides
one with the nullable parameter; so the first overrides the last, and the second does when the
parameter stands for a nullable type. -/
theorem flat_relations_compose_nullable :
    let returning (type : Ty) : Signature := ⟨.function, "f", none, 0, [], type, false⟩
    let parameter := Ty.ofParameter ⟨1⟩ 0 "T"
    let substitution : Substitution := .ofList [((⟨1⟩, 0), (Ty.ofClass .int).makeNullable)]
    (returning .nothing).check (returning parameter) .structural .empty = .overridable ∧
    (returning parameter).check (returning parameter.makeNullable) .structural .empty =
      .overridable ∧
    (returning .nothing).check (returning parameter.makeNullable) .structural .empty =
      .overridable ∧
    ((returning parameter).substitute substitution).check
      ((returning parameter.makeNullable).substitute substitution)
      .structural .empty = .overridable := by
  intro returning parameter substitution
  obtain ⟨-, -, -, -, trans, stable⟩ := flat_relations_compose (.inr rfl) .empty
  have first : (returning .nothing).check (returning parameter) .structural .empty =
      .overridable := by
    decide
  have second : (returning parameter).check (returning parameter.makeNullable) .structural .empty =
      .overridable := by
    decide
  exact ⟨first, second, trans _ _ _ first second, stable _ _ substitution second⟩

end ClassSymbols
