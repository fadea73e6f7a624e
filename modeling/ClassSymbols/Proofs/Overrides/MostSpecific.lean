import ClassSymbols.Proofs.Graph.Acyclic
import ClassSymbols.Proofs.Overrides.Outcome
import ClassSymbols.Proofs.Store.Filling

/-!
# Most specific members

The member that a fake override is copied from is the first one of its bucket that no other member
overrides, in any number of steps. Where no member overrides itself by way of others, there is such
a member, and each member of the bucket has one above it. Otherwise there may be none, and the first
member of the bucket is copied.

## Main definitions

* `Bucket.Unoverridden` — whether a member of a bucket is in no other member's closure.
* `Bucket.firstUnoverridden?` — the search for such a member.

## Main statements

* `Bucket.firstUnoverridden?_eq_some_iff`, `Bucket.firstUnoverridden?_eq_none_iff` — what the search
  finds.
* `Bucket.unoverridden_iff` — what it says of the ids of a bucket.
* `mostSpecific_exact` — a most specific member exists and is found, and each member has one above
  it.
-/

namespace ClassSymbols

/-! ## The search -/

/-- The first element that passes a test that also looks at its position. -/
theorem find?_zipIdx_eq_some_iff {α : Type} {list : List α} {p : α × Nat → Bool} {a : α} {i : Nat} :
    list.zipIdx.find? p = some (a, i) ↔
      list[i]? = some a ∧ p (a, i) = true ∧ ∀ j < i, ∀ b, list[j]? = some b → p (b, j) = false := by
  rw [List.find?_eq_some_iff_getElem]
  simp only [List.getElem_zipIdx, List.length_zipIdx, Nat.zero_add, Prod.mk.injEq,
    Bool.not_eq_true']
  constructor
  · rintro ⟨passes, k, hk, ⟨rfl, rfl⟩, earlier⟩
    refine ⟨List.getElem?_eq_getElem hk, passes, fun j hj b hb => ?_⟩
    obtain ⟨_, rfl⟩ := List.getElem?_eq_some_iff.1 hb
    exact earlier j hj
  · rintro ⟨found, passes, earlier⟩
    obtain ⟨hi, rfl⟩ := List.getElem?_eq_some_iff.1 found
    exact ⟨passes, i, hi, ⟨rfl, rfl⟩,
      fun j hj => earlier j hj _ (List.getElem?_eq_getElem (hj.trans hi))⟩

namespace Bucket

variable {bucket : Bucket} {lookup : OverriddenLookup} {closures : List (List DeclId)}
  {member : Inherited} {i : Nat}

/-- Whether the member at a position is in the closure of no member at another position. -/
def Unoverridden (bucket : Bucket) (lookup : OverriddenLookup) (i : Nat) : Prop :=
  ∃ member, bucket.members[i]? = some member ∧
    ∀ j other, bucket.members[j]? = some other → j ≠ i → member.id ∉ lookup.closure other.id

/-- The first member that is in no closure but its own, with its position. -/
def firstUnoverridden? (bucket : Bucket) (closures : List (List DeclId)) :
    Option (Inherited × Nat) :=
  bucket.members.zipIdx.find? fun (member, i) => inNoOtherClosure closures i member.id

/-- The most specific member is the one that the search finds, or else the first one. -/
theorem mostSpecific_eq_getD :
    bucket.mostSpecific closures =
      ((bucket.firstUnoverridden? closures).map Prod.fst).getD bucket.first :=
  bucket.mostSpecific_eq closures

theorem inNoOtherClosure_iff (hi : bucket.members[i]? = some member) :
    inNoOtherClosure (bucket.ids.map lookup.closure) i member.id = true ↔
      bucket.Unoverridden lookup i := by
  have closureAt (j : Nat) : (bucket.ids.map lookup.closure)[j]? =
      bucket.members[j]?.map fun other => lookup.closure other.id := by
    rw [← closures_eq, List.getElem?_map]
  simp only [inNoOtherClosure, List.all_eq_true, Prod.forall, List.mem_zipIdx_iff_getElem?,
    closureAt, Option.map_eq_some_iff, Bool.or_eq_true, beq_iff_eq, Bool.not_eq_true',
    List.contains_eq_mem, decide_eq_false_iff_not]
  constructor
  · intro free
    exact ⟨member, hi, fun j other hj apart => (free _ j ⟨other, hj, rfl⟩).resolve_left apart⟩
  · rintro ⟨_, hi', free⟩ _ j ⟨other, hj, rfl⟩
    obtain rfl := Option.some.inj (hi'.symm.trans hi)
    exact or_iff_not_imp_left.2 (free j other hj)

/-- The search finds the first member that no other one overrides. -/
theorem firstUnoverridden?_eq_some_iff :
    bucket.firstUnoverridden? (bucket.ids.map lookup.closure) = some (member, i) ↔
      bucket.members[i]? = some member ∧ bucket.Unoverridden lookup i ∧
      ∀ j < i, ¬bucket.Unoverridden lookup j := by
  rw [firstUnoverridden?, find?_zipIdx_eq_some_iff]
  refine and_congr_right fun hi => and_congr (inNoOtherClosure_iff hi) (forall₂_congr fun j _ => ?_)
  constructor
  · rintro fails ⟨other, hj, free⟩
    exact Bool.eq_false_iff.1 (fails other hj) ((inNoOtherClosure_iff hj).2 ⟨other, hj, free⟩)
  · intro overridden other hj
    exact Bool.eq_false_iff.2 fun passes => overridden ((inNoOtherClosure_iff hj).1 passes)

/-- The search finds nothing if each member is overridden by another one. -/
theorem firstUnoverridden?_eq_none_iff :
    bucket.firstUnoverridden? (bucket.ids.map lookup.closure) = none ↔
      ∀ i, ¬bucket.Unoverridden lookup i := by
  rw [firstUnoverridden?, List.find?_eq_none]
  constructor
  · rintro fails i ⟨member, hi, free⟩
    exact fails (member, i) (List.mem_zipIdx_iff_getElem?.2 hi)
      ((inNoOtherClosure_iff hi).2 ⟨member, hi, free⟩)
  · rintro overridden ⟨member, i⟩ hi passes
    exact overridden i ((inNoOtherClosure_iff (List.mem_zipIdx_iff_getElem?.1 hi)).1 passes)

/-- Where the members have different ids, no other member overrides a member iff no other id reaches
its id. -/
theorem unoverridden_iff (nodup : bucket.ids.Nodup) (hi : bucket.members[i]? = some member) :
    bucket.Unoverridden lookup i ↔
      ∀ id ∈ bucket.ids, lookup.Reaches id member.id → id = member.id := by
  constructor
  · rintro ⟨_, hi', free⟩ id listed reaches
    obtain rfl := Option.some.inj (hi'.symm.trans hi)
    obtain ⟨other, ho, rfl⟩ := List.mem_map.1 listed
    obtain ⟨j, hj⟩ := List.mem_iff_getElem?.1 ho
    by_contra different
    refine free j other hj ?_ (FiniteGraph.mem_closure_iff.2 reaches)
    rintro rfl
    exact different (congrArg Inherited.id (Option.some.inj (hj.symm.trans hi)))
  · refine fun free => ⟨member, hi, fun j other hj apart inside => apart ?_⟩
    have same :=
      free other.id (List.mem_map_of_mem (List.mem_of_getElem? hj))
        (FiniteGraph.mem_closure_iff.1 inside)
    have bound := (List.getElem?_eq_some_iff.1 (getElem?_ids hj)).1
    exact (List.getElem?_inj bound nodup).1 (by rw [getElem?_ids hj, getElem?_ids hi, same])

/-- Where no member reaches a cycle, each one is in the closure of one that no other member
overrides. -/
theorem exists_unoverridden (nodup : bucket.ids.Nodup)
    (acyclic : ∀ id ∈ bucket.ids, ¬lookup.Cyclic id) (hm : member ∈ bucket.members) :
    ∃ i top, bucket.members[i]? = some top ∧ bucket.Unoverridden lookup i ∧
      member.id ∈ lookup.closure top.id := by
  obtain ⟨_, listed, up, free⟩ :=
    FiniteGraph.exists_unreached_reaches acyclic (List.mem_map_of_mem hm)
  obtain ⟨top, ht, rfl⟩ := List.mem_map.1 listed
  obtain ⟨i, hi⟩ := List.mem_iff_getElem?.1 ht
  exact ⟨i, top, hi, (unoverridden_iff nodup hi).2 free, FiniteGraph.mem_closure_iff.2 up⟩

end Bucket

/-- Where no member of a bucket leads to a member that overrides itself, some member is in no other
member's closure. The search for the most specific member does not end without one: it finds the
first one. And every member is in the closure of one that no other member overrides. -/
theorem mostSpecific_exact (lookup : OverriddenLookup) (bucket : Bucket) (nodup : bucket.ids.Nodup)
    (acyclic : ∀ id ∈ bucket.ids, ¬lookup.Cyclic id) :
    (∃ i, bucket.Unoverridden lookup i ∧ (∀ j < i, ¬bucket.Unoverridden lookup j) ∧
      bucket.members[i]? = some (bucket.mostSpecific (bucket.ids.map lookup.closure)) ∧
      bucket.firstUnoverridden? (bucket.ids.map lookup.closure) =
        some (bucket.mostSpecific (bucket.ids.map lookup.closure), i)) ∧
    ∀ member ∈ bucket.members, ∃ i top,
      bucket.members[i]? = some top ∧ bucket.Unoverridden lookup i ∧
      member.id ∈ lookup.closure top.id := by
  refine ⟨?_, fun member hm => Bucket.exists_unoverridden nodup acyclic hm⟩
  have listed : bucket.first ∈ bucket.members := List.mem_cons_self
  obtain ⟨k, -, -, free, -⟩ := Bucket.exists_unoverridden nodup acyclic listed
  cases found : bucket.firstUnoverridden? (bucket.ids.map lookup.closure) with
  | none => exact absurd free (Bucket.firstUnoverridden?_eq_none_iff.1 found k)
  | some pair =>
    obtain ⟨member, i⟩ := pair
    obtain ⟨hi, unoverridden, first⟩ := Bucket.firstUnoverridden?_eq_some_iff.1 found
    obtain rfl : bucket.mostSpecific (bucket.ids.map lookup.closure) = member := by
      rw [Bucket.mostSpecific_eq_getD, found]
      rfl
    exact ⟨i, unoverridden, first, hi, rfl⟩

/-- Five functions without parameters. The second, the third and the fourth one override the one
before them, and the fifth overrides the first. -/
def layered : List Declaration :=
  let function (id : DeclId) (overridden : List DeclId) : Declaration :=
    { id, name := "f", container := none,
      kind := .function { returnType := .nullableAny, overridden } }
  [function ⟨1⟩ [], function ⟨2⟩ [⟨1⟩], function ⟨3⟩ [⟨2⟩], function ⟨4⟩ [⟨3⟩], function ⟨5⟩ [⟨1⟩]]

/-- Of the first, second, fourth and fifth function, the fourth is found. It overrides the second by
way of one that is not among them. -/
theorem mostSpecific_exact_layered :
    let store := Store.empty.receive ⟨7⟩ layered
    let lookup := store.overriddenLookup
    let supertypes : List SupertypeMembers := [⟨.nullableAny, ⟨6⟩, [⟨1⟩, ⟨2⟩, ⟨4⟩, ⟨5⟩]⟩]
    ∃ bucket : Bucket, inheritedMembers store supertypes = .ok bucket.members ∧
      bucket.ids = [⟨1⟩, ⟨2⟩, ⟨4⟩, ⟨5⟩] ∧
      (bucket.mostSpecific (bucket.ids.map lookup.closure)).id = ⟨4⟩ ∧
      bucket.ids.Nodup ∧ (∀ id ∈ bucket.ids, ¬lookup.Cyclic id) ∧
      (∃ i, bucket.Unoverridden lookup i ∧ (∀ j < i, ¬bucket.Unoverridden lookup j) ∧
        bucket.members[i]? = some (bucket.mostSpecific (bucket.ids.map lookup.closure)) ∧
        bucket.firstUnoverridden? (bucket.ids.map lookup.closure) =
          some (bucket.mostSpecific (bucket.ids.map lookup.closure), i)) ∧
      ∀ member ∈ bucket.members, ∃ i top,
        bucket.members[i]? = some top ∧ bucket.Unoverridden lookup i ∧
        member.id ∈ lookup.closure top.id := by
  intro store lookup supertypes
  have listed : ((inheritedMembers store supertypes).toOption.any fun inherited =>
      inherited.head?.any fun first =>
        let bucket : Bucket := ⟨first, inherited.tail⟩
        decide (bucket.ids = [⟨1⟩, ⟨2⟩, ⟨4⟩, ⟨5⟩] ∧
          (bucket.mostSpecific (bucket.ids.map lookup.closure)).id = ⟨4⟩)) =
      true := by decide +kernel
  have acyclic (id : DeclId) : ¬lookup.Cyclic id :=
    FiniteGraph.not_cyclic_of_descends DeclId.number (by decide +kernel)
  cases offered : inheritedMembers store supertypes with
  | error e =>
    rw [offered] at listed
    cases listed
  | ok inherited =>
    rw [offered] at listed
    cases inherited with
    | nil => cases listed
    | cons first others =>
      obtain ⟨ids, found⟩ : (Bucket.mk first others).ids = [⟨1⟩, ⟨2⟩, ⟨4⟩, ⟨5⟩] ∧ _ :=
        of_decide_eq_true listed
      have nodup : (Bucket.mk first others).ids.Nodup := by rw [ids]; decide
      exact ⟨⟨first, others⟩, rfl, ids, found, nodup, fun id _ => acyclic id,
        mostSpecific_exact lookup ⟨first, others⟩ nodup fun id _ => acyclic id⟩

end ClassSymbols
