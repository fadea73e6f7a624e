import ClassSymbols.Proofs.Loading.Counterparts
import ClassSymbols.Proofs.Ty.Mentions

/-!
# Comparing renamed types

A comparison of types that follows supertypes asks a store for the classes that the types mention,
and for those that the supertypes of these mention in turn. If both stores find renamed classes for
all of them, renamed types compare in the same way. A relation of one's own may ask for more, or
look at ids; if it does not, it is natural, like those that have names.

## Main definitions

* `FindsTwins` — whether two stores find renamed classes for some class ids.
* `TypeRelation.ReadsStore` — whether a relation depends on the store.
* `TypeRelation.Natural` — relations in which renamed types compare in the same way.

## Main statements

* `RelationKind.natural` — the relations that have names are natural.
-/

namespace ClassSymbols

/-- Whether two stores find renamed classes for the class ids of a set, which has all that the
supertypes of these classes mention. -/
structure FindsTwins (f : DeclId → DeclId) (s t : Store) (K : ClassId → Prop) : Prop where
  injective : Function.Injective f
  any : K .any
  found : ∀ {k},
    K k → Option.Rel (fun a b => b = f a ∧ Option.Rel (Declaration.Twin f) (s.get? a) (t.get? b))
    (s.findClass? k) (t.findClass? k)
  closed : ∀ {k a data}, K k → s.findClass? k = some a → s.IsClass a data →
    ∀ supertype ∈ data.supertypes, ∀ j ∈ supertype.classIds, K j

variable {f : DeclId → DeclId} {s t : Store} {K : ClassId → Prop}

theorem Ty.structurallyBelow_rename (injective : Function.Injective f) (sub sup : Ty) :
    (sub.rename f).structurallyBelow (sup.rename f) = sub.structurallyBelow sup := by
  have same (a b : Ty) : (a.rename f == b.rename f) = (a == b) := by
    rw [Bool.eq_iff_iff, beq_iff_eq, beq_iff_eq, rename_inj injective]
  simp only [structurallyBelow, ← rename_makeNullable, same, isNothing_rename, isAny_rename,
    nullable_rename]

theorem TypeArgument.fits_rename (injective : Function.Injective f) {below below' : Ty → Ty → Bool}
    {a b : TypeArgument}
    (same : ∀ {v w x y}, a = .projected v x → b = .projected w y →
      below' (x.rename f) (y.rename f) = below x y ∧ below' (y.rename f) (x.rename f) = below y x) :
    (a.rename f).fits below' (b.rename f) = a.fits below b := by
  cases b with
  | star => cases a <;> rfl
  | projected w y =>
    cases a with
    | star => rfl
    | projected v x =>
      obtain ⟨first, second⟩ := same rfl rfl
      have equal : (x.rename f == y.rename f) = (x == y) := by
        rw [Bool.eq_iff_iff, beq_iff_eq, beq_iff_eq, Ty.rename_inj injective]
      cases w <;> simp [fits, first, second, equal]

namespace FindsTwins

variable (h : FindsTwins f s t K)
include h

/-- The supertypes of a renamed type are those of the type, renamed. -/
theorem supertypesOf {type : Ty} (within : type.Within K) :
    t.supertypesOf (type.rename f) = (s.supertypesOf type).map (Ty.rename f) := by
  unfold Store.supertypesOf
  rw [Ty.classId?_rename]
  cases named : type.classId? with
  | none => rfl
  | some k =>
    have found := h.found (within k (Ty.mem_classIds_of_classId? named))
    simp only [Option.bind_some]
    generalize s.findClass? k = a, t.findClass? k = b at found
    cases found with
    | none => rfl
    | @some a b found =>
      obtain ⟨rfl, twins⟩ := found
      simp only
      generalize s.get? a = d, t.get? (f a) = d' at twins
      cases twins with
      | none => rfl
      | @some d d' twin =>
        simp only [Option.bind_some]
        cases hc : d.class? with
        | none =>
          have other := twin.class?
          rw [hc, Option.map_none, Option.map_none, Option.map_eq_none_iff] at other
          rw [other]
          rfl
        | some data =>
          obtain ⟨data', hc', same⟩ := twin.class?_eq hc
          have supertypes : data'.supertypes = data.supertypes.map (Ty.rename f) :=
            (congrArg ClassData.supertypes same :)
          rw [hc']
          simp only [supertypes, List.map_map]
          refine List.map_congr_left fun supertype _ => ?_
          have seen := Substitution.Renames.ofSupertype h.injective a type
          simp [seen.rename_substitute]

theorem within_supertypesOf {type : Ty} (within : type.Within K) :
    ∀ supertype ∈ s.supertypesOf type, supertype.Within K := by
  intro supertype hs
  unfold Store.supertypesOf at hs
  cases named : type.classId?.bind s.findClass? with
  | none => simp [named] at hs
  | some a =>
    obtain ⟨j, hj, found⟩ := Option.bind_eq_some_iff.1 named
    cases stored : (s.get? a).bind (·.class?) with
    | none => simp [named, stored] at hs
    | some data =>
      simp only [named, stored, List.mem_map] at hs
      obtain ⟨listed, hl, rfl⟩ := hs
      obtain ⟨declaration, hd, hc⟩ := Option.bind_eq_some_iff.1 stored
      have own : listed.Within K :=
        h.closed (within j (Ty.mem_classIds_of_classId? hj)) found ⟨declaration, hd, hc⟩ listed hl
      intro k hk
      rw [Ty.classIds_withNullable] at hk
      exact own.substitute (.ofSupertype within h.any a) k hk

/-- Renamed types compare in the same way by way of the supertypes that classes list. -/
theorem belowWithin (room : Nat) {sub sup : Ty} (hsub : sub.Within K) (hsup : sup.Within K) :
    t.belowWithin room (sub.rename f) (sup.rename f) = s.belowWithin room sub sup := by
  induction room generalizing sub sup with
  | zero => exact Ty.structurallyBelow_rename h.injective sub sup
  | succ room ih =>
    have arguments : (((sub.rename f).arguments.zip (sup.rename f).arguments).all fun pair =>
        pair.1.fits (t.belowWithin room) pair.2) = (sub.arguments.zip sup.arguments).all fun pair =>
          pair.1.fits (s.belowWithin room) pair.2 := by
      rw [Ty.arguments_rename, Ty.arguments_rename, List.zip_map, List.all_map]
      refine forall₂_all (List.forall₂_same.2 ?_)
      rintro ⟨a, b⟩ hab
      obtain ⟨ha, hb⟩ := List.of_mem_zip hab
      refine TypeArgument.fits_rename h.injective fun {v w x y} hx hy => ?_
      have inner := hsub.argument (hx ▸ ha)
      have inner' := hsup.argument (hy ▸ hb)
      exact ⟨ih inner inner', ih inner' inner⟩
    have supertypes : ((t.supertypesOf (sub.rename f)).any fun supertype =>
        t.belowWithin room supertype (sup.rename f)) = (s.supertypesOf sub).any fun supertype =>
          s.belowWithin room supertype sup := by
      rw [h.supertypesOf hsub, List.any_map]
      refine forall₂_any (List.forall₂_same.2 fun supertype hs => ?_)
      exact ih (h.within_supertypesOf hsub supertype hs) hsup
    simp only [Store.belowWithin, Ty.structurallyBelow_rename h.injective, Ty.nullable_rename,
      Ty.isAny_rename, Ty.classId?_rename, arguments, supertypes]
    simp

end FindsTwins

namespace TypeRelation

/-- Whether two stores make a difference to a relation. -/
def ReadsStore (relation : TypeRelation) : Prop :=
  ∃ s t sub sup, relation.holds s sub sup ≠ relation.holds t sub sup

/-- Relations in which renamed types compare in the same way: they do not look at ids, and of the
store at most at the classes that are found for what the types mention and, in turn, for what the
supertypes of these mention. -/
structure Natural (relation : TypeRelation) : Prop where
  holds_rename : ∀ {f : DeclId → DeclId} {s t : Store} {K : ClassId → Prop} {sub sup : Ty},
    Function.Injective f →
    (relation.ReadsStore → FindsTwins f s t K ∧ sub.Within K ∧ sup.Within K) →
    relation.holds t (sub.rename f) (sup.rename f) = relation.holds s sub sup

/-- A class is below the supertype that it lists, unless the store does not know it. -/
theorem readsStore_hierarchy : hierarchy.ReadsStore := by
  let below : Declaration :=
    { id := ⟨1⟩, name := "B", container := none
      kind := .classifier
        { classId := ⟨"", "B", false⟩, supertypes := [.ofClass ⟨"", "A", false⟩] } }
  refine ⟨Store.empty.receive ⟨2⟩ [below], .empty, .ofClass ⟨"", "B", false⟩,
    .ofClass ⟨"", "A", false⟩, ?_⟩
  decide +kernel

end TypeRelation

/-- Of the relations that have names, only one looks at the hierarchy of the stored classes. -/
theorem RelationKind.readsStore_iff (kind : RelationKind) :
    kind.relation.ReadsStore ↔ kind = .hierarchy := by
  cases kind with
  | exact => exact iff_of_false (fun ⟨_, _, _, _, differs⟩ => differs rfl) nofun
  | structural => exact iff_of_false (fun ⟨_, _, _, _, differs⟩ => differs rfl) nofun
  | hierarchy => exact iff_of_true TypeRelation.readsStore_hierarchy rfl

/-- The relations that have names are natural. -/
theorem RelationKind.natural (kind : RelationKind) : kind.relation.Natural where
  holds_rename {f s t K sub sup} injective finds := by
    cases kind with
    | exact =>
      change (sub.rename f == sup.rename f) = (sub == sup)
      rw [Bool.eq_iff_iff, beq_iff_eq, beq_iff_eq, Ty.rename_inj injective]
    | structural => exact Ty.structurallyBelow_rename injective sub sup
    | hierarchy =>
      obtain ⟨twins, hsub, hsup⟩ := finds TypeRelation.readsStore_hierarchy
      exact twins.belowWithin _ hsub hsup

end ClassSymbols
