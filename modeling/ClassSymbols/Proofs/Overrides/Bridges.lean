import ClassSymbols.Proofs.Overrides.Instantiation
import ClassSymbols.Proofs.Overrides.MostSpecific
import ClassSymbols.Proofs.Overrides.StandIns
import ClassSymbols.Proofs.Subtyping.Structural
import Mathlib.Data.List.Find

/-!
# Fake overrides and the members that they stand for

The fake override of a bucket is a copy of one of its members, the first one that no other member of
the bucket reaches, and it looks in its class as that member does there. So it validly overrides the
members of the bucket as far as that member does.

## Main definitions

* `FiniteGraph.unreached?` — the first node of a list that no other one reaches.

## Main statements

* `SynthesisInput.Reads.overriddenBy_next` — what a fake override stands for.
* `SynthesisInput.Reads.signature_fakeFor` — how a fake override looks.
-/

namespace ClassSymbols

/-! ## The first member that no other one reaches -/

/-- The first node of a list that no other one of the list reaches, or else the first node. -/
def FiniteGraph.unreached? {α : Type} [DecidableEq α] (graph : FiniteGraph α) (list : List α) :
    Option α :=
  (list.find? fun a => list.all fun b => b == a || !(graph.closure b).contains a).or list.head?

theorem find?_zipIdx {α : Type} (list : List α) {p : α × Nat → Bool} {q : α → Bool}
    (agree : ∀ pair ∈ list.zipIdx, p pair = q pair.1) :
    (list.zipIdx.find? p).map Prod.fst = list.find? q := by
  conv_rhs => rw [← List.zipIdx_map_fst 0 list, List.find?_map]
  refine congrArg _ (List.find?_congr agree)

namespace Bucket

variable {bucket : Bucket} {lookup : OverriddenLookup}

theorem inNoOtherClosure_eq (nodup : bucket.ids.Nodup) {member : Inherited} {i : Nat}
    (hi : (member, i) ∈ bucket.members.zipIdx) :
    inNoOtherClosure (bucket.ids.map lookup.closure) i member.id =
      bucket.ids.all fun other =>
        other == member.id || !(lookup.closure other).contains member.id := by
  have here : bucket.members[i]? = some member := List.mem_zipIdx_iff_getElem?.1 hi
  rw [Bool.eq_iff_iff, inNoOtherClosure_iff here, unoverridden_iff nodup here, List.all_eq_true]
  refine forall₂_congr fun other _ => ?_
  rw [Bool.or_eq_true, beq_iff_eq, Bool.not_eq_true', List.contains_eq_mem, decide_eq_false_iff_not,
    FiniteGraph.mem_closure_iff, imp_iff_or_not]

theorem unreached?_ids (nodup : bucket.ids.Nodup) :
    lookup.unreached? bucket.ids =
      some (bucket.mostSpecific (bucket.ids.map lookup.closure)).id := by
  have found : (bucket.members.zipIdx.find? fun pair =>
      inNoOtherClosure (bucket.ids.map lookup.closure) pair.2 pair.1.id).map Prod.fst =
      bucket.members.find? fun member => bucket.ids.all fun other =>
        other == member.id || !(lookup.closure other).contains member.id :=
    find?_zipIdx bucket.members fun pair hp => inNoOtherClosure_eq nodup hp
  have first : bucket.ids.head? = some bucket.first.id := rfl
  have chosen : lookup.unreached? bucket.ids = (Option.map Inherited.id (bucket.members.find?
      fun member => bucket.ids.all fun other =>
        other == member.id || !(lookup.closure other).contains member.id)).or bucket.ids.head? := by
    rw [FiniteGraph.unreached?, ids, List.find?_map]
    rfl
  rw [chosen, ← found, first, mostSpecific_eq]
  cases bucket.members.zipIdx.find? fun pair =>
    inNoOtherClosure (bucket.ids.map lookup.closure) pair.2 pair.1.id <;> rfl

end Bucket

/-! ## Lists of merged members -/

namespace SynthesisInput

variable {input : SynthesisInput} {declared : List DeclId} {supertypes : List SupertypeMembers}
  {inherited : List Inherited}

namespace Reads

variable (reads : input.Reads declared supertypes inherited) {next : DeclId} {name : String}
  {bucket : Bucket} (settles : input.Settles inherited next name bucket)
include reads settles

/-- The most specific member of a bucket is the first one that no other member reaches. -/
theorem unreached?_ids :
    input.lookup.unreached? bucket.ids = some (input.specificOf bucket).id := by
  rw [Bucket.unreached?_ids (reads.nodup_ids settles), specificOf, closuresOf_eq]

/-- Only the bucket of a fake override adds to what it overrides. -/
theorem overridden_additions {stamp : DeclId × SynthesisEvent}
    (hs : stamp ∈ input.stamped input.store.next (input.events inherited))
    (other : ¬(stamp.1 = next ∧
      ∃ name bucket, stamp.2 = .settle name bucket ∧ input.Materializes bucket)) :
    (input.additions stamp.1 stamp.2).overridden.filter (·.1 = next) = [] := by
  refine List.filter_eq_nil_iff.2 ?_
  rintro ⟨x, y⟩ hp
  rw [decide_eq_true_eq]
  rintro rfl
  obtain ⟨at_next, _ | ⟨name', bucket'⟩⟩ := stamp
  · obtain ⟨-, rfl, -⟩ := mem_overridden_check_iff.1 hp
    obtain ⟨-, -, hd⟩ := check_mem_events_iff.1 (mem_stamped_iff.2 ⟨_, hs⟩)
    have known := (reads.mem_declaredNamed_iff.1 hd).2.1
    simp [Store.signature?, reads.get?_of_settles settles] at known
  · obtain ⟨made, rfl, -⟩ := mem_overridden_settle_iff.1 hp
    exact other ⟨rfl, name', bucket', rfl, made⟩

/-- A fake override stands for the members of its bucket, in their order. -/
theorem overriddenBy_next (made : input.Materializes bucket) :
    (input.run inherited).set.overriddenBy next = bucket.ids := by
  have start : input.start.set.overriddenBy next = [] := overriddenBy_start
  have ownPairs : (input.additions next (.settle name bucket)).overridden =
      bucket.members.map fun member => (next, member.id) := by
    rw [input.additions_settle_of_joined made.1, standIn, made.2]
    rfl
  have own : (bucket.members.map fun member => (next, member.id)).filter (·.1 = next) =
      bucket.members.map fun member => (next, member.id) := List.filter_eq_self.2 (by simp)
  have unique := input.pairwise_stamped input.store.next (input.events inherited)
  rw [run_eq, Progress.overriddenBy_addAll, start, logFrom, List.flatMap_map, List.filter_flatMap,
    flatMap_eq_of_pairwise unique settles, ownPairs, own, List.map_map]
  · exact @OverrideSet.foldl_note_of_nodup [] bucket.ids (reads.nodup_ids settles)
  · intro stamp hs apart
    refine reads.overridden_additions settles hs ?_
    rintro ⟨same, name', bucket', event, made'⟩
    rcases apart with later | earlier
    · rw [pending_settle_of_materializes made, same] at later
      exact Nat.not_succ_le_self _ later
    · rw [event, pending_settle_of_materializes made', same] at earlier
      exact Nat.not_succ_le_self _ earlier

/-- A member that represents itself overrides nothing: a declared member with its id would have
bound it. -/
theorem overriddenBy_kept (keeps : input.keeps bucket = true) :
    (input.run inherited).set.overriddenBy bucket.first.id = [] := by
  obtain ⟨first, -, free, -⟩ := settles.mem_iff.1 settles.first_mem
  have stored := reads.get?_eq first
  refine List.eq_nil_iff_forall_not_mem.2 fun y hy => ?_
  rcases mem_overriddenBy_run_iff.1 hy with ⟨_, _, d, hd, -, same, -⟩ | ⟨_, _, settles', -, -⟩
  · obtain ⟨listed, signed, -⟩ := reads.mem_declaredNamed_iff.1 hd
    have looks : Signature.of? bucket.first.declaration .identity = some bucket.first.signature :=
      beq_iff_eq.1 (keeps_iff.1 keeps).2.1
    have shape : d.signature = bucket.first.signature := by
      rw [← same, Store.signature?, stored, Option.bind_some, looks] at signed
      exact (Option.some.inj signed).symm
    exact free ((reads.binds_iff first).2 ⟨d.id, d.signature, listed, signed, shape ▸ .refl _⟩)
  · simp [reads.get?_of_settles settles'] at stored

/-- A fake override looks as the member that it was copied from does in the class. -/
theorem signature_fakeFor (inScope : (input.specificOf bucket).declaration.Scoped input.store.next)
    (foreign : (input.specificOf bucket).substitution.Foreign
      (input.specificOf bucket).id input.store.next) :
    Signature.of? (input.fakeFor next bucket) .identity =
      some (input.specificOf bucket).signature := by
  have specific := settles.mem_inherited (input.specificOf_mem bucket)
  have seen := Store.inheritedAs?_eq_some_iff.1 (reads.mem_inherited_iff.1 specific)
  exact (Signature.of?_fakeOverride (fun _ => inScope.covers settles.le)
    (foreign.neutral settles.le)).trans seen.2.2.2

end Reads

end SynthesisInput

end ClassSymbols
