import ClassSymbols.Proofs.Scope.Unfolding
import ClassSymbols.Proofs.Subtyping.Occurrences

/-!
# Transitivity of subtyping

Where the classes make up a hierarchy, a type is below all that its supertypes are below. And what
is below another type of its class has supertypes below those of that type, as long as these have
projections that keep those of its arguments. So subtyping is transitive through a type whose
projections are kept on the way to what it is below, if it is not cut off.

The induction is on how the type in the middle keeps its projections: its supertypes and the types
of its arguments are what comes to stand in the middle of the comparisons further down, where the
two outer types may change places.

## Main definitions

* `Store.Hierarchical` — stores in which classes make up a hierarchy.
* `Store.Keeps` — types whose projections are kept on the way to another type.

## Main statements

* `Store.Below.climb` — a type is below what a supertype is below.
* `Store.Below.trans`, `holds_hierarchy_trans` — transitivity, without a bound on the steps and with
  it.
-/

namespace ClassSymbols

/-- A walk of some steps has a last step. -/
theorem Leads.exists_last {α : Type} {r : α → α → Prop} {n : Nat} {a c : α}
    (h : Leads r (n + 1) a c) :
    ∃ b, r b c := by
  induction n generalizing a with
  | zero =>
    obtain _ | ⟨step, _ | _⟩ := h
    exact ⟨a, step⟩
  | succ n ih =>
    obtain _ | ⟨_, rest⟩ := h
    exact ih rest

/-- If an argument fits another one, and this a third one, then the first fits the third, provided
that the comparison of types is transitive through the type of the argument in the middle where that
varies. -/
theorem TypeArgument.Fits.trans {P : Ty → Ty → Prop} {a b c : TypeArgument}
    (out : ∀ {x y z}, b = .projected .covariant y → c = .projected .covariant z → P x y → P y z →
      P x z)
    (into : ∀ {x y z}, b = .projected .contravariant y → c = .projected .contravariant z → P z y →
      P y x → P z x)
    (h : Fits P a b) (g : Fits P b c) : Fits P a c := by
  cases g with
  | star => exact .star a
  | covariant other below =>
    cases h with
    | covariant other' below' => exact .covariant other' (out rfl rfl below' below)
    | contravariant => exact absurd rfl other
    | same => exact .covariant other below
  | contravariant other below =>
    cases h with
    | covariant => exact absurd rfl other
    | contravariant other' below' => exact .contravariant other' (into rfl rfl below below')
    | same => exact .contravariant other below
  | same => exact h

namespace Store

variable {store : Store} {room : Nat} {a b c s : Ty} {k l : ClassId}

/-! ## Hierarchies -/

/-- Whether the classes that are found make up a hierarchy: supertypes are built on classes, no
class is above itself, none is above the root, and none is below the class without values. -/
structure Hierarchical (store : Store) : Prop where
  classes : ∀ {k id supertype}, store.Lists k id supertype → ∃ l, supertype.classId? = some l
  acyclic : ∀ {links k}, ¬Leads store.LinksTo (links + 1) k k
  root : ∀ {l}, ¬store.LinksTo .any l
  least : ∀ {k}, ¬store.LinksTo k .nothing

/-- The class of a type links to the classes of its supertypes. -/
theorem Hierarchical.linksTo_of_mem (h : store.Hierarchical) (mem : s ∈ store.supertypesOf a) :
    ∃ k j, a.classId? = some k ∧ s.classId? = some j ∧ store.LinksTo k j := by
  obtain ⟨k, id, listed, ha, lists, rfl⟩ := mem_supertypesOf_iff.1 mem
  obtain ⟨j, hj⟩ := h.classes lists
  exact ⟨k, j, ha, Ty.classId?_mapParameters hj, id, listed, lists, hj⟩

/-- A store that was filled with classes that lead down is a hierarchy if these list class types
with values, and the root is not one of them. -/
theorem Hierarchical.of_receive_empty {next : DeclId} {declarations : List Declaration}
    {rank : ClassId → Nat} (ranked : (Store.empty.receive next declarations).Ranked rank)
    (root : (Store.empty.receive next declarations).findClass? .any = none)
    (listed : ∀ declaration ∈ declarations, ∀ data ∈ declaration.class?,
      ∀ supertype ∈ data.supertypes, ∃ l ∈ supertype.classId?, l ≠ .nothing) :
    (Store.empty.receive next declarations).Hierarchical where
  classes lists := by
    obtain ⟨l, named, -⟩ := lists.of_declared listed
    exact ⟨l, named⟩
  acyclic := ranked.acyclic
  root := by
    rintro l ⟨id, supertype, ⟨found, -⟩, -⟩
    rw [root] at found
    cases found
  least := by
    rintro k ⟨id, supertype, lists, named⟩
    obtain ⟨l, named', apart⟩ := lists.of_declared listed
    exact apart (Option.some.inj (named'.symm.trans named))

/-- What a class type is below, apart from the root, is built on a class that the class of the type
leads to, unless this leads to the class without values. -/
theorem leads_of_belowWithin (h : store.Hierarchical) (ha : a.classId? = some k)
    (apart : c.isAny ≠ true) (below : store.belowWithin room a c = true) :
    ∃ links l, Leads store.LinksTo links k l ∧ (c.classId? = some l ∨ l = .nothing) := by
  have direct {a : Ty} {k : ClassId} (ha : a.classId? = some k)
    (structural : a.structurallyBelow c = true) :
      ∃ links l, Leads store.LinksTo links k l ∧ (c.classId? = some l ∨ l = .nothing) := by
    obtain ⟨-, least | ⟨root, -⟩ | same⟩ := Ty.structurallyBelow_iff.1 structural
    · exact ⟨0, k, .refl k, .inr (Option.some.inj (ha.symm.trans (Ty.isNothing_iff.1 least)))⟩
    · exact absurd root apart
    · refine ⟨0, k, .refl k, .inl ?_⟩
      rw [← same, Ty.classId?_withNullable, ha]
  induction room generalizing a k with
  | zero => exact direct ha below
  | succ room ih =>
    cases belowWithin_succ_iff.1 below with
    | structural structural => exact direct ha structural
    | root root => exact absurd root apart
    | arguments hsub hsup => exact ⟨0, k, .refl k, .inl (hsup.trans (hsub.symm.trans ha))⟩
    | supertype _ _ _ _ mem below =>
      obtain ⟨k', j, ha', hs, step⟩ := h.linksTo_of_mem mem
      obtain rfl : k = k' := Option.some.inj (ha.symm.trans ha')
      obtain ⟨links, l, leads, ends⟩ := ih hs below
      exact ⟨links + 1, l, .head step leads, ends⟩

namespace Below

/-- A type is below what a supertype of it is below. -/
theorem climb (h : store.Hierarchical) (mem : s ∈ store.supertypesOf a) (below : store.Below s c) :
    store.Below a c := by
  have le : a.nullable = true → c.nullable = true := by
    rw [← nullable_of_mem_supertypesOf mem]
    exact below.nullable
  by_cases root : c.isAny = true
  · exact .of_isAny root le
  obtain ⟨room, within⟩ := below
  obtain ⟨k, j, ha, hs, step⟩ := h.linksTo_of_mem mem
  obtain ⟨links, l, leads, hc | rfl⟩ := leads_of_belowWithin h hs root within
  · refine below_iff.2 (.supertype ha hc ?_ le mem ⟨room, within⟩)
    rintro rfl
    exact h.acyclic (.head step leads)
  · obtain ⟨last, step'⟩ := (Leads.head step leads).exists_last
    exact absurd step' h.least

/-- Only the root is above the root. -/
theorem isAny (h : store.Hierarchical) (root : b.isAny = true) (below : store.Below b c) :
    c.isAny = true := by
  cases below_iff.1 below with
  | structural structural =>
    obtain ⟨-, least | ⟨root', -⟩ | same⟩ := Ty.structurallyBelow_iff.1 structural
    · rw [Ty.isNothing_iff, Ty.isAny_iff.1 root] at least
      exact absurd least (by decide)
    · exact root'
    · rwa [← same, Ty.isAny_withNullable]
  | root root' => exact root'
  | arguments hsub hsup => exact Ty.isAny_iff.2 (hsup.trans (hsub.symm.trans (Ty.isAny_iff.1 root)))
  | supertype _ _ _ _ mem =>
    obtain ⟨k, j, hb, -, step⟩ := h.linksTo_of_mem mem
    obtain rfl : k = .any := Option.some.inj (hb.symm.trans (Ty.isAny_iff.1 root))
    exact absurd step h.root

/-- What is structurally below a type is below what that type is below. -/
theorem of_structurallyBelow_of_below (h : store.Hierarchical)
    (structural : a.structurallyBelow b = true) (below : store.Below b c) : store.Below a c := by
  obtain ⟨le, least | ⟨root, -⟩ | same⟩ := Ty.structurallyBelow_iff.1 structural
  · exact .of_structurallyBelow (Ty.structurallyBelow_iff.2 ⟨below.nullable ∘ le, .inl least⟩)
  · exact .of_isAny (below.isAny h root) (below.nullable ∘ le)
  · rw [← same] at below le
    simpa using below.withNullable (below.nullable ∘ le)

/-- Subtyping is transitive through a type if it is so for the types of the same class. -/
theorem trans_of_arguments (h : store.Hierarchical)
    (through : ∀ {a k}, a.classId? = some k → b.classId? = some k →
      (a.nullable = true → b.nullable = true) →
      List.Forall₂ (TypeArgument.Fits store.Below) a.arguments b.arguments → store.Below a c)
    (below : store.Below a b) (below' : store.Below b c) : store.Below a c := by
  obtain ⟨room, within⟩ := below
  induction room generalizing a with
  | zero => exact of_structurallyBelow_of_below h within below'
  | succ room ih =>
    cases belowWithin_succ_iff.1 within with
    | structural structural => exact of_structurallyBelow_of_below h structural below'
    | root root plain =>
      exact .of_isAny (below'.isAny h root) fun nullable => by simp [plain] at nullable
    | arguments hsub hsup le fits =>
      exact through hsub hsup le (fits.imp fun _ _ fits => fits.imp fun within => ⟨room, within⟩)
    | supertype _ _ _ _ mem within => exact climb h mem (ih within)

end Below

/-! ## Types that keep their projections -/

/-- Whether a type keeps its projections on the way to a type that it is below. It has none, or they
do not matter there, or the types in the arguments keep theirs, or so do its supertypes. These are
below that type not only as they are listed, where the projections of the arguments are dropped, but
also with projections that keep them. -/
inductive Keeps (store : Store) : Ty → Ty → Prop
  | fixed {b c : Ty} (h : ∀ argument ∈ b.arguments, ∃ x, argument = .invariant x) : Keeps store b c
  | structural {b c : Ty} (h : b.structurallyBelow c = true) : Keeps store b c
  | root {b c : Ty} (h : c.isAny = true) : Keeps store b c
  | arguments {b c : Ty} (same : b.classId? = c.classId?)
    (out : ∀ y z, (.projected .covariant y, .projected .covariant z) ∈ b.arguments.zip c.arguments →
      Keeps store y z)
    (into : ∀ y z, (.projected .contravariant y, .projected .contravariant z) ∈
      b.arguments.zip c.arguments →
      ∀ x, Keeps store y x) : Keeps store b c
  | supertypes {b c : Ty} (apart : b.classId? ≠ c.classId?) (levels : Nat) (loose : Ty → Ty)
    (kept : ∀ {k id listed}, b.classId? = some k → store.Lists k id listed →
      store.Below (listed.seenFrom id b) c →
      listed.Loosens levels (loose listed) ∧ b.Carries id (loose listed) ∧
        store.Below ((loose listed).seenFrom id b) c)
    (each : ∀ {k id listed}, b.classId? = some k → store.Lists k id listed →
      store.Below (listed.seenFrom id b) c →
      Keeps store ((loose listed).seenFrom id b) c) : Keeps store b c

/-- Only equal arguments fit arguments that do not vary. -/
theorem eq_of_fits_fixed {as bs : List TypeArgument}
    (fixed : ∀ argument ∈ bs, ∃ x, argument = .invariant x)
    (fits : List.Forall₂ (TypeArgument.Fits store.Below) as bs) : as = bs := by
  induction fits with
  | nil => rfl
  | cons first _ ih =>
    obtain ⟨⟨x, rfl⟩, rest⟩ := List.forall_mem_cons.1 fixed
    cases first
    rw [ih rest]

/-- Arguments that fit arguments that fit other ones fit these, if comparisons are transitive
through the types in the middle where those vary. -/
theorem fits_trans {as bs cs : List TypeArgument}
    (out : ∀ {x y z}, (.projected .covariant y, .projected .covariant z) ∈ bs.zip cs →
      store.Below x y → store.Below y z → store.Below x z)
    (into : ∀ {x y z}, (.projected .contravariant y, .projected .contravariant z) ∈ bs.zip cs →
      store.Below z y → store.Below y x → store.Below z x)
    (h : List.Forall₂ (TypeArgument.Fits store.Below) as bs)
    (g : List.Forall₂ (TypeArgument.Fits store.Below) bs cs) :
    List.Forall₂ (TypeArgument.Fits store.Below) as cs := by
  induction h generalizing cs with
  | nil =>
    cases g
    exact .nil
  | cons first rest ih =>
    obtain _ | ⟨first', rest'⟩ := g
    refine .cons (first.trans ?_ ?_ first') (ih (fun mem => out (List.mem_cons_of_mem _ mem))
      (fun mem => into (List.mem_cons_of_mem _ mem)) rest')
    · rintro x y z rfl rfl
      exact out List.mem_cons_self
    · rintro x y z rfl rfl
      exact into List.mem_cons_self

namespace Below

/-- A type is below what a type of the same class is structurally below, if its arguments fit those
of that type. -/
theorem of_fits_of_structurallyBelow (ha : a.classId? = some k) (hb : b.classId? = some k)
    (le : a.nullable = true → b.nullable = true)
    (fits : List.Forall₂ (TypeArgument.Fits store.Below) a.arguments b.arguments)
    (structural : b.structurallyBelow c = true) : store.Below a c := by
  obtain ⟨le', least | ⟨root, -⟩ | same⟩ := Ty.structurallyBelow_iff.1 structural
  · rw [Ty.isNothing_iff, hb, ← ha, ← Ty.isNothing_iff] at least
    exact .of_structurallyBelow (Ty.structurallyBelow_iff.2 ⟨le' ∘ le, .inl least⟩)
  · exact .of_isAny root (le' ∘ le)
  · have below : store.Below a b := below_iff.2 (.arguments ha hb le fits)
    rw [← same]
    simpa using below.withNullable (le' ∘ le)

/-- Subtyping in a hierarchy is transitive through types that keep their projections. -/
theorem trans (h : store.Hierarchical) (keeps : store.Keeps b c) (below : store.Below a b)
    (below' : store.Below b c) :
    store.Below a c := by
  have le' := below'.nullable
  induction keeps generalizing a with
  | fixed fixed =>
    refine trans_of_arguments h (fun ha hb le fits => ?_) below below'
    have same := Ty.withNullable_of_classId? ha hb (eq_of_fits_fixed fixed fits)
    exact of_structurallyBelow_of_below h (Ty.structurallyBelow_iff.2 ⟨le, .inr (.inr same)⟩) below'
  | structural structural =>
    exact trans_of_arguments h (fun ha hb le fits =>
      of_fits_of_structurallyBelow ha hb le fits structural) below below'
  | root root => exact .of_isAny root (le' ∘ below.nullable)
  | arguments same _ _ out into =>
    refine trans_of_arguments h (fun ha hb le fits => ?_) below below'
    cases below_iff.1 below' with
    | structural structural => exact of_fits_of_structurallyBelow ha hb le fits structural
    | root root => exact .of_isAny root (le' ∘ le)
    | arguments _ _ _ fits' =>
      refine below_iff.2 (.arguments ha (same ▸ hb) (le' ∘ le) (fits_trans ?_ ?_ fits fits'))
      -- in an `in` projection the type of `a` is the upper one, of which nothing is known here
      · exact fun mem below below' => out _ _ mem below below' below'.nullable
      · exact fun mem below below' => into _ _ mem _ below below' below'.nullable
    | supertype hb' hc apart =>
      rw [hb', hc] at same
      exact absurd (Option.some.inj same) apart
  | supertypes apart levels loose kept _ each =>
    refine trans_of_arguments h (fun ha hb le fits => ?_) below below'
    cases below_iff.1 below' with
    | structural structural => exact of_fits_of_structurallyBelow ha hb le fits structural
    | root root => exact .of_isAny root (le' ∘ le)
    | arguments hb' hc => exact absurd (hb'.trans hc.symm) apart
    | supertype _ _ _ _ mem below' =>
      obtain ⟨k, id, listed, hb', lists, rfl⟩ := mem_supertypesOf_iff.1 mem
      -- the supertype with its projections is the next type in the middle
      obtain ⟨loosens, carries, still⟩ := kept hb' lists below'
      have below := below_seenFrom loosens carries le fits
      have mem' := mem_supertypesOf_iff.2 ⟨k, id, listed, ha.trans (hb.symm.trans hb'), lists, rfl⟩
      exact climb h mem' (each hb' lists below' below still still.nullable)

end Below

end Store

/-- Where classes make up a hierarchy, a type that is accepted for another one is accepted wherever
that one is, if the type in the middle keeps its projections and the last comparison is over in
time. -/
theorem holds_hierarchy_trans {store : Store} {a b c : Ty} (h : store.Hierarchical)
    (keeps : store.Keeps b c) (settles : store.Settles Limits.typeDepth a c)
    (below : TypeRelation.hierarchy.holds store a b = true)
    (below' : TypeRelation.hierarchy.holds store b c = true) :
    TypeRelation.hierarchy.holds store a c = true :=
  settles.belowWithin_iff.2 (.trans h keeps ⟨Limits.typeDepth, below⟩ ⟨Limits.typeDepth, below'⟩)

/-- What a class lists that passes its type parameter on is its supertype with the argument of a
type. -/
theorem Ty.seenFrom_applied (owner : DeclId) (name next : String) (variance : Variance)
    (argument : TypeArgument) :
    (Ty.applied next (.projected variance (.ofParameter owner 0 "T"))).seenFrom owner
      (.applied name argument) =
      .applied next (.projected variance (Substitution.replacementOfArgument argument)) := by
  have replaced : (Ty.ofParameter owner 0 "T").mapParameters
    (Substitution.ofSupertype owner (.applied name argument)).replacement? =
      Substitution.replacementOfArgument argument := by
    simp [Ty.ofParameter, Ty.mapParameters_mk, TypeHead.replacement?, Substitution.replacement?,
      Substitution.get?_ofSupertype, Ty.applied, Ty.withArguments]
  rw [Ty.seenFrom, Ty.substitute, Ty.mapParameters_of_classId? rfl]
  change Ty.applied next (.projected variance ((Ty.ofParameter owner 0 "T").mapParameters _)) = _
  rw [replaced]

namespace Store.Keeps

variable {store : Store} {name next : String} {c : Ty}

/-- Where a class passes its type parameter on, not as `in`, a type that is built on it keeps its
argument if its supertype does that has the argument in an `out` projection. -/
theorem of_passing {owner : DeclId} {variance : Variance} {argument : TypeArgument}
    (found : store.findClass? ⟨"", name, false⟩ = some owner)
    (stored : store.get? owner = some (.passing owner name variance next))
    (other : variance ≠ .contravariant) (apart : some ⟨"", name, false⟩ ≠ c.classId?)
    (kept : argument.KeptAt .covariant)
    (still : store.Below
      (.applied next (.projected variance (Substitution.replacementOfArgument argument))) c →
      store.Below
      (.applied next (.projected .covariant (Substitution.replacementOfArgument argument))) c)
    (keeps : store.Keeps
      (.applied next (.projected .covariant (Substitution.replacementOfArgument argument))) c) :
    store.Keeps (.applied name argument) c := by
  have only {k : ClassId} {id : DeclId} {listed : Ty}
    (named : (Ty.applied name argument).classId? = some k)
      (lists : store.Lists k id listed) :
      owner = id ∧ Ty.applied next (.projected variance (.ofParameter owner 0 "T")) = listed := by
    obtain rfl := Option.some.inj named
    obtain ⟨found', data, ⟨declaration, stored', hc⟩, mem⟩ := lists
    obtain rfl : owner = id := Option.some.inj (found.symm.trans found')
    obtain rfl := Option.some.inj (stored.symm.trans stored')
    obtain rfl := Option.some.inj hc
    exact ⟨rfl, (List.mem_singleton.1 mem).symm⟩
  refine .supertypes apart 1 (fun _ =>
    .applied next (.projected .covariant (.ofParameter owner 0 "T"))) ?_ ?_
  · intro k id listed named lists below
    obtain ⟨rfl, rfl⟩ := only named lists
    rw [Ty.seenFrom_applied] at below ⊢
    refine ⟨⟨_, rfl, rfl, rfl, .cons (.covariant other rfl) .nil⟩, ?_, still below⟩
    intro occurrence mem _ argument' ha
    obtain rfl : occurrence = (.covariant, ⟨owner, 0, "T"⟩) := List.mem_singleton.1 mem
    obtain rfl : argument = argument' := Option.some.inj ha
    exact kept
  · intro k id listed named lists _
    obtain ⟨rfl, rfl⟩ := only named lists
    rwa [Ty.seenFrom_applied]

/-- A class type in whose argument a type varies keeps its projections if that type does. -/
theorem applied {y z : Ty} (keeps : store.Keeps y z) :
    store.Keeps (.applied name (.projected .covariant y))
      (.applied name (.projected .covariant z)) := by
  refine .arguments rfl (fun y' z' mem => ?_) (fun y' z' mem => ?_)
  · cases List.mem_singleton.1 mem
    exact keeps
  · cases List.mem_singleton.1 mem

end Store.Keeps

/-- A crate of crates is below a crate of crates of anything, which is below a box of boxes of the
root. -/
theorem holds_hierarchy_trans_crates :
    let store := Store.empty.receive ⟨3⟩ crates
    let a := Ty.applied "Crate" (.invariant (.applied "Crate" (.invariant (.ofClass .int))))
    let b := Ty.applied "Crate" (.projected .covariant (.applied "Crate" .star))
    let c := Ty.applied "Box"
      (.projected .covariant (.applied "Box" (.projected .covariant .nullableAny)))
    TypeRelation.hierarchy.holds store a b = true ∧ TypeRelation.hierarchy.holds store b c = true ∧
      TypeRelation.hierarchy.holds store a c = true := by
  intro store a b c
  have ranked : store.Ranked fun k => if k.relative = "Crate" then 1 else 0 := by decide
  have h : store.Hierarchical := .of_receive_empty ranked (by decide) (by decide)
  have inner :
      store.Keeps (.applied "Crate" .star) (.applied "Box" (.projected .covariant .nullableAny)) :=
    .of_passing rfl rfl (by decide) (by decide) rfl (fun _ => ⟨0, by decide⟩)
      (.structural (by decide))
  have keeps : store.Keeps b c :=
    .of_passing rfl rfl (by decide) (by decide) (Or.inr rfl) (fun _ => ⟨3, by decide⟩) inner.applied
  have below : TypeRelation.hierarchy.holds store a b = true := by decide
  have below' : TypeRelation.hierarchy.holds store b c = true := by decide
  exact ⟨below, below', holds_hierarchy_trans h keeps (by decide) below below'⟩

/-- Classes with a type parameter each of which passes it on to the next one, where it may vary. -/
def papers : List Declaration :=
  [.passing ⟨1⟩ "Ticket" .covariant "Card", .passing ⟨2⟩ "Card" .covariant "Note",
    .passing ⟨3⟩ "Note" .covariant "Page",
    .passing ⟨4⟩ "Page" .covariant "Sheet", .genericClass ⟨5⟩ "Sheet" []]

theorem papers_ranked : (Store.empty.receive ⟨6⟩ papers).Ranked fun k =>
    ["Sheet", "Page", "Note", "Card", "Ticket"].idxOf k.relative := by decide

theorem papers_hierarchical : (Store.empty.receive ⟨6⟩ papers).Hierarchical :=
  .of_receive_empty papers_ranked (by decide) (by decide)

/-- Types that are built on one of these classes at all levels. -/
def pile (name : String) : Nat → Ty
  | 0 => .ofClass .int
  | levels + 1 => .applied name (.projected .covariant (pile name levels))

theorem pile_keeps (levels : Nat) :
    (Store.empty.receive ⟨6⟩ papers).Keeps (pile "Note" levels) (pile "Sheet" levels) := by
  induction levels with
  | zero => exact .structural (by decide)
  | succ levels ih =>
    refine .of_passing rfl rfl (by decide) (by decide : some _ ≠ some _) (Or.inr rfl) id ?_
    exact .of_passing rfl rfl (by decide) (by decide : some _ ≠ some _) (Or.inr rfl) id ih.applied

/-- Whether no walk along links and none of the types that are listed or given is deeper than a
bound. -/
structure Store.Within (store : Store) (bound : Nat) (types : List Ty) : Prop where
  shallow : store.Shallow bound
  listed : ∀ {k id supertype}, store.Lists k id supertype → supertype.nesting ≤ bound
  given : ∀ type ∈ types, type.nesting ≤ bound

theorem Store.Within.of_receive_empty {next : DeclId} {declarations : List Declaration}
    {bound : Nat} {types : List Ty}
    (shallow : (Store.empty.receive next declarations).Shallow bound)
    (listed : ∀ declaration ∈ declarations,
      ∀ data ∈ declaration.class?, ∀ supertype ∈ data.supertypes, supertype.nesting ≤ bound)
    (given : ∀ type ∈ types, type.nesting ≤ bound) :
    (Store.empty.receive next declarations).Within bound types where
  shallow := shallow
  listed lists := lists.of_declared listed
  given := given

/-- Types of little depth in a hierarchy of little depth need not keep their projections, as a crate
of anything does not keep its star in a box, and comparisons need not be over in time, as that of a
pile of tickets with one of sheets is not. In both cases subtyping is not transitive. -/
theorem not_forall_holds_trans :
    (¬∀ (store : Store) (a b c : Ty), store.Within 32 [a, b, c] → store.Hierarchical →
      store.Settles Limits.typeDepth a c → TypeRelation.hierarchy.holds store a b = true →
      TypeRelation.hierarchy.holds store b c = true →
      TypeRelation.hierarchy.holds store a c = true) ∧
    ¬∀ (store : Store) (a b c : Ty), store.Within 32 [a, b, c] → store.Hierarchical →
      store.Keeps b c →
      TypeRelation.hierarchy.holds store a b = true →
      TypeRelation.hierarchy.holds store b c = true →
      TypeRelation.hierarchy.holds store a c = true := by
  constructor
  · intro claim
    let store := Store.empty.receive ⟨3⟩ crates
    let crate := Ty.applied "Crate" (.invariant (.ofClass .int))
    let anyCrate := Ty.applied "Crate" .star
    let box := Ty.applied "Box" (.invariant .nullableAny)
    have ranked : store.Ranked fun k => if k.relative = "Crate" then 1 else 0 := by decide
    have shallow : store.Shallow 32 := ranked.shallow fun k => by split <;> decide
    have refused : TypeRelation.hierarchy.holds store crate box ≠ true := by decide
    exact refused
      (claim store crate anyCrate box (.of_receive_empty shallow (by decide) (by decide))
        (.of_receive_empty ranked (by decide) (by decide)) (by decide) (by decide) (by decide))
  · intro claim
    have shallow : (Store.empty.receive ⟨6⟩ papers).Shallow 32 :=
      papers_ranked.shallow fun k => List.idxOf_le_length.trans (by decide)
    have refused : TypeRelation.hierarchy.holds (Store.empty.receive ⟨6⟩ papers) (pile "Ticket" 26)
      (pile "Sheet" 26) ≠
        true := by decide +kernel
    exact refused (claim _ _ (pile "Note" 26) _ (.of_receive_empty shallow (by decide) (by decide))
      papers_hierarchical
      (pile_keeps 26) (by decide +kernel) (by decide +kernel))

end ClassSymbols
