import ClassSymbols.Proofs.Data.Related
import ClassSymbols.Proofs.Overrides.Additions
import ClassSymbols.Proofs.Overrides.Renaming

/-!
# Renaming declarations in override sets

Adding the renamed members, pairs, conflicts and fake overrides to a renamed set gives the renamed
set.

## Main definitions

* `OverrideSet.Renames`, `Progress.Renames` — whether a set is another one after a renaming, and
  what a synthesis has found.
* `Additions.rename` — what a part of a synthesis adds, renamed.

## Main statements

* `Progress.Renames.add` — adding what is renamed.
-/

namespace ClassSymbols

variable {f : DeclId → DeclId}

def EffectiveMember.rename (f : DeclId → DeclId) (member : EffectiveMember) : EffectiveMember :=
  { member with id := f member.id }

def Conflict.rename (f : DeclId → DeclId) (conflict : Conflict) : Conflict :=
  { conflict with
    first := f conflict.first
    second := f conflict.second }

/-! ## Sets -/

namespace OverrideSet

/-- Whether a set is another one after a renaming: the groups and their members in the same order,
and the same members that each of them overrides. -/
structure Renames (f : DeclId → DeclId) (set renamed : OverrideSet) : Prop where
  owner : renamed.owner = f set.owner
  groups : OrderedMap.Related id (fun group group' => group' = group.map (EffectiveMember.rename f))
    set.groups renamed.groups
  overridden :
    OrderedMap.Related f (fun list list' => list' = list.map f) set.overridden renamed.overridden

variable {set renamed : OverrideSet}

theorem Renames.members (h : set.Renames f renamed) :
    renamed.members = set.members.map (EffectiveMember.rename f) := by
  unfold OverrideSet.members OrderedMap.values
  rw [List.map_flatten, List.map_map]
  congr 1
  have groups := h.groups
  unfold OrderedMap.Related at groups
  rw [← List.map_map, ← forall₂_map_eq, List.forall₂_map_left_iff, List.forall₂_map_right_iff]
  exact groups.imp fun _ _ h => h.2

theorem Renames.memberIds (h : set.Renames f renamed) :
    renamed.memberIds = set.memberIds.map f := by
  rw [OverrideSet.memberIds, OverrideSet.memberIds, h.members, List.map_map, List.map_map]
  rfl

theorem Renames.push (h : set.Renames f renamed) (name : String) (member : EffectiveMember) :
    (set.push name member).Renames f (renamed.push name (member.rename f)) := by
  refine ⟨h.owner, h.groups.alter Function.injective_id name fun related => ?_, h.overridden⟩
  cases related with
  | none => rfl
  | some e => simp [e]

theorem Renames.pushAll (h : set.Renames f renamed) (members : List (String × EffectiveMember)) :
    (set.pushAll members).Renames f
      (renamed.pushAll (members.map fun member => (member.1, member.2.rename f))) := by
  unfold OverrideSet.pushAll
  rw [List.foldl_map]
  induction members generalizing set renamed with
  | nil => exact h
  | cons member rest ih => exact ih (h.push member.1 member.2)

variable (injective : Function.Injective f)
include injective

theorem map_note (list : List DeclId) (id : DeclId) :
    (note list id).map f = note (list.map f) (f id) := by
  have known : (list.map f).contains (f id) = list.contains id := by
    rw [Bool.eq_iff_iff, List.contains_iff_mem, List.contains_iff_mem,
      List.mem_map_of_injective injective]
  unfold note
  rw [known]
  split <;> simp

theorem Renames.recordOverridden (h : set.Renames f renamed) (member overridden : DeclId) :
    (set.recordOverridden member overridden).Renames f
      (renamed.recordOverridden (f member) (f overridden)) := by
  refine ⟨h.owner, h.groups, h.overridden.alter injective member fun related => ?_⟩
  cases related with
  | none => exact (map_note injective [] overridden).symm
  | some e =>
    subst e
    exact (map_note injective _ overridden).symm

theorem Renames.recordAll (h : set.Renames f renamed) (pairs : List (DeclId × DeclId)) :
    (set.recordAll pairs).Renames f (renamed.recordAll (pairs.map (Prod.map f f))) := by
  unfold OverrideSet.recordAll
  rw [List.foldl_map]
  induction pairs generalizing set renamed with
  | nil => exact h
  | cons pair rest ih => exact ih (h.recordOverridden injective pair.1 pair.2)

theorem Renames.get?_overridden (h : set.Renames f renamed) (id : DeclId) :
    renamed.overridden.get? (f id) = (set.overridden.get? id).map (List.map f) := by
  have related := h.overridden.get? injective id
  cases found : set.overridden.get? id with
  | none =>
    rw [found] at related
    cases related' : renamed.overridden.get? (f id) with
    | none => rfl
    | some list =>
      rw [related'] at related
      cases related
  | some list =>
    rw [found] at related
    cases related' : renamed.overridden.get? (f id) with
    | none =>
      rw [related'] at related
      cases related
    | some list' =>
      rw [related'] at related
      cases related with
      | some e => rw [e, Option.map_some]

end OverrideSet

/-! ## Additions -/

def Additions.rename (f : DeclId → DeclId) (added : Additions) : Additions where
  members := added.members.map fun member => (member.1, member.2.rename f)
  overridden := added.overridden.map (Prod.map f f)
  conflicts := added.conflicts.map (Conflict.rename f)
  pending := added.pending.map (Declaration.rename f)

/-- Whether a synthesis has found what another one has, renamed. -/
structure Progress.Renames (f : DeclId → DeclId) (progress renamed : Progress) : Prop where
  set : progress.set.Renames f renamed.set
  conflicts : renamed.conflicts = progress.conflicts.map (Conflict.rename f)
  pending : renamed.pending = progress.pending.map (Declaration.rename f)

theorem Progress.Renames.add {progress renamed : Progress} (h : progress.Renames f renamed)
    (injective : Function.Injective f) (added : Additions) :
    (progress.add added).Renames f (renamed.add (added.rename f)) := by
  refine ⟨(h.set.pushAll added.members).recordAll injective added.overridden, ?_, ?_⟩
  · simp [Progress.add, Additions.rename, h.conflicts]
  · simp [Progress.add, Additions.rename, h.pending]

end ClassSymbols
