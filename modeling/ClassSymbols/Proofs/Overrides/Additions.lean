import ClassSymbols.Proofs.Overrides.Buckets

/-!
# What a synthesis adds

A synthesis only adds to what it has found: members, pairs of an overriding and an overridden
member, conflicts, and fake overrides.

## Main definitions

* `Additions` — what a part of a synthesis adds.
* `Progress.add`, `Progress.addAll` — what has been found with it.

## Main statements

* `Progress.overriddenBy_addAll`, `Progress.members_addAll`, `Progress.conflicts_addAll` — the set
  and the conflicts after some additions.
-/

namespace ClassSymbols

/-! ## Sets -/

namespace OverrideSet

def note (list : List DeclId) (id : DeclId) : List DeclId :=
  if list.contains id then list else list ++ [id]

theorem mem_note {list : List DeclId} {id other : DeclId} :
    other ∈ note list id ↔ other ∈ list ∨ other = id := by
  unfold note
  split
  · next h =>
      exact ⟨.inl, fun ho => ho.elim (fun hm => hm) (fun e => e ▸ List.contains_iff_mem.1 h)⟩
  · simp

theorem foldl_note_of_nodup {list ids : List DeclId} (h : (list ++ ids).Nodup) :
    ids.foldl note list = list ++ ids := by
  induction ids generalizing list with
  | nil => simp
  | cons id rest ih =>
    have new : id ∉ list := fun hm => (List.nodup_append.1 h).2.2 id hm id List.mem_cons_self rfl
    have rest' : ((list ++ [id]) ++ rest).Nodup := by simpa using h
    rw [List.foldl_cons, note, if_neg (by simpa using new), ih rest']
    simp

theorem overriddenBy_recordOverridden (set : OverrideSet) (member overridden other : DeclId) :
    (set.recordOverridden member overridden).overriddenBy other =
      if member = other then note (set.overriddenBy other) overridden
        else set.overriddenBy other := by
  unfold recordOverridden overriddenBy note
  rw [OrderedMap.get?_alter]
  by_cases h : member = other <;> simp [h]

def recordAll (set : OverrideSet) (pairs : List (DeclId × DeclId)) : OverrideSet :=
  pairs.foldl (fun set pair => set.recordOverridden pair.1 pair.2) set

def pushAll (set : OverrideSet) (members : List (String × EffectiveMember)) : OverrideSet :=
  members.foldl (fun set member => set.push member.1 member.2) set

theorem overriddenBy_recordAll (set : OverrideSet) (pairs : List (DeclId × DeclId)) (id : DeclId) :
    (set.recordAll pairs).overriddenBy id =
      ((pairs.filter (·.1 = id)).map Prod.snd).foldl note (set.overriddenBy id) := by
  unfold recordAll
  induction pairs generalizing set with
  | nil => rfl
  | cons pair rest ih =>
    rw [List.foldl_cons, ih, overriddenBy_recordOverridden]
    by_cases h : pair.1 = id <;> simp [h]

theorem mem_overriddenBy_recordAll {set : OverrideSet} {pairs : List (DeclId × DeclId)}
    {id other : DeclId} : other ∈ (set.recordAll pairs).overriddenBy id ↔
      other ∈ set.overriddenBy id ∨ (id, other) ∈ pairs := by
  unfold recordAll
  induction pairs generalizing set with
  | nil => simp
  | cons pair rest ih =>
    obtain ⟨member, overridden⟩ := pair
    rw [List.foldl_cons, ih, overriddenBy_recordOverridden]
    by_cases h : member = id
    · simp [h, mem_note, or_assoc]
    · simp [h, Ne.symm h]

@[simp] theorem groups_recordAll (set : OverrideSet) (pairs : List (DeclId × DeclId)) :
    (set.recordAll pairs).groups = set.groups := by
  unfold recordAll
  induction pairs generalizing set with
  | nil => rfl
  | cons pair rest ih => exact (ih _).trans rfl

@[simp] theorem overridden_pushAll (set : OverrideSet) (members : List (String × EffectiveMember)) :
    (set.pushAll members).overridden = set.overridden := by
  unfold pushAll
  induction members generalizing set with
  | nil => rfl
  | cons member rest ih => exact (ih _).trans rfl

def Supported (set : OverrideSet) : Prop :=
  ∀ id list, set.overridden.get? id = some list → list ≠ []

theorem Supported.recordOverridden {set : OverrideSet} (h : set.Supported)
    (member overridden : DeclId) :
    (set.recordOverridden member overridden).Supported := by
  intro id list found
  rw [OverrideSet.recordOverridden, OrderedMap.get?_alter] at found
  by_cases same : member = id
  · rw [if_pos same] at found
    have mem : overridden ∈ list :=
      Option.some.inj found ▸ (@mem_note ((set.overridden.get? member).getD []) _ _).2 (.inr rfl)
    exact List.ne_nil_of_mem mem
  · rw [if_neg same] at found
    exact h _ _ found

theorem Supported.recordAll {set : OverrideSet} (h : set.Supported)
    (pairs : List (DeclId × DeclId)) :
    (set.recordAll pairs).Supported := by
  unfold OverrideSet.recordAll
  induction pairs generalizing set with
  | nil => exact h
  | cons pair rest ih => exact ih (h.recordOverridden pair.1 pair.2)

theorem members_push (set : OverrideSet) (name : String) (member : EffectiveMember) :
    (set.push name member).members.Perm (set.members ++ [member]) :=
  OrderedMap.flatten_alter_perm set.groups name member

theorem members_pushAll (set : OverrideSet) (members : List (String × EffectiveMember)) :
    (set.pushAll members).members.Perm (set.members ++ members.map Prod.snd) := by
  unfold pushAll
  induction members generalizing set with
  | nil => simp
  | cons member rest ih =>
    rw [List.foldl_cons, List.map_cons, ← List.singleton_append, ← List.append_assoc]
    exact (ih _).trans ((set.members_push member.1 member.2).append_right _)

theorem groups_pushAll (set : OverrideSet) (members : List (String × EffectiveMember)) :
    (set.pushAll members).groups = members.foldl
      (fun groups member => groups.alter member.1 fun group => group.getD [] ++ [member.2])
        set.groups := by
  unfold pushAll
  induction members generalizing set with
  | nil => rfl
  | cons member rest ih => exact ih _

theorem groups_pushAll_congr {set other : OverrideSet} (same : set.groups = other.groups)
    (members : List (String × EffectiveMember)) :
    (set.pushAll members).groups = (other.pushAll members).groups := by
  rw [groups_pushAll, groups_pushAll, same]

theorem group_pushAll (set : OverrideSet) (members : List (String × EffectiveMember))
    (name : String) :
    (set.pushAll members).group name =
      set.group name ++ (members.filter (·.1 = name)).map Prod.snd := by
  rw [group, groups_pushAll, OrderedMap.getD_foldl_alter]
  rfl

/-- The names of new groups come last, in the order of their first members. -/
theorem keys_pushAll (set : OverrideSet) (members : List (String × EffectiveMember)) :
    (set.pushAll members).groups.keys = set.groups.keys ++
      (members.map Prod.fst).eraseDups.filter (· ∉ set.groups.keys) := by
  rw [groups_pushAll, OrderedMap.keys_foldl_alter]

end OverrideSet

/-! ## Additions -/

/-- What a part of a synthesis adds. -/
structure Additions where
  members : List (String × EffectiveMember) := []
  overridden : List (DeclId × DeclId) := []
  conflicts : List Conflict := []
  pending : List Declaration := []

namespace Progress

/-- What has been found once something is added. Each fake override has used up one id. -/
def add (progress : Progress) (added : Additions) : Progress where
  set := (progress.set.pushAll added.members).recordAll added.overridden
  conflicts := progress.conflicts ++ added.conflicts
  pending := progress.pending ++ added.pending
  next := ⟨progress.next.number + added.pending.length⟩

def addAll (progress : Progress) (added : List Additions) : Progress := added.foldl add progress

variable (progress : Progress) (added : List Additions)

theorem conflicts_addAll :
    (progress.addAll added).conflicts = progress.conflicts ++ added.flatMap (·.conflicts) := by
  unfold addAll
  induction added generalizing progress with
  | nil => simp
  | cons a rest ih => simp [ih, add]

theorem pending_addAll :
    (progress.addAll added).pending = progress.pending ++ added.flatMap (·.pending) := by
  unfold addAll
  induction added generalizing progress with
  | nil => simp
  | cons a rest ih => simp [ih, add]

theorem next_addAll : (progress.addAll added).next.number =
    progress.next.number + (added.flatMap (·.pending)).length := by
  unfold addAll
  induction added generalizing progress with
  | nil => simp
  | cons a rest ih =>
    rw [List.foldl_cons, ih, List.flatMap_cons, List.length_append]
    exact Nat.add_assoc _ _ _

theorem overriddenBy_addAll (id : DeclId) : (progress.addAll added).set.overriddenBy id =
    (((added.flatMap (·.overridden)).filter (·.1 = id)).map Prod.snd).foldl OverrideSet.note
      (progress.set.overriddenBy id) := by
  unfold addAll
  induction added generalizing progress with
  | nil => rfl
  | cons a rest ih =>
    rw [List.foldl_cons, ih, List.flatMap_cons, List.filter_append, List.map_append,
      List.foldl_append, add, OverrideSet.overriddenBy_recordAll]
    simp [OverrideSet.overriddenBy]

theorem mem_overriddenBy_addAll {id other : DeclId} :
    other ∈ (progress.addAll added).set.overriddenBy id ↔
      other ∈ progress.set.overriddenBy id ∨ (id, other) ∈ added.flatMap (·.overridden) := by
  unfold addAll
  induction added generalizing progress with
  | nil => simp
  | cons a rest ih =>
    rw [List.foldl_cons, ih, add, OverrideSet.mem_overriddenBy_recordAll, List.flatMap_cons,
      List.mem_append, or_assoc]
    simp [OverrideSet.overriddenBy]

theorem supported_addAll (h : progress.set.Supported) : (progress.addAll added).set.Supported := by
  unfold addAll
  induction added generalizing progress with
  | nil => exact h
  | cons a rest ih =>
    refine ih _ (OverrideSet.Supported.recordAll (fun id list found => ?_) a.overridden)
    rw [OverrideSet.overridden_pushAll] at found
    exact h id list found

theorem members_addAll : (progress.addAll added).set.members.Perm
    (progress.set.members ++ (added.flatMap (·.members)).map Prod.snd) := by
  unfold addAll
  induction added generalizing progress with
  | nil => simp
  | cons a rest ih =>
    rw [List.foldl_cons, List.flatMap_cons, List.map_append, ← List.append_assoc]
    refine (ih _).trans (List.Perm.append_right _ ?_)
    unfold add OverrideSet.members
    rw [OverrideSet.groups_recordAll]
    exact progress.set.members_pushAll a.members

theorem groups_addAll :
    (progress.addAll added).set.groups =
      (progress.set.pushAll (added.flatMap (·.members))).groups := by
  unfold addAll
  induction added generalizing progress with
  | nil => rfl
  | cons first rest ih =>
    have split : progress.set.pushAll (first.members ++ rest.flatMap (·.members)) =
        (progress.set.pushAll first.members).pushAll (rest.flatMap (·.members)) :=
      List.foldl_append ..
    rw [List.foldl_cons, ih, List.flatMap_cons, split]
    exact OverrideSet.groups_pushAll_congr (by rw [add, OverrideSet.groups_recordAll]) _

theorem group_addAll (name : String) :
    (progress.addAll added).set.group name = progress.set.group name ++
      ((added.flatMap (·.members)).filter (·.1 = name)).map Prod.snd := by
  rw [OverrideSet.group, groups_addAll]
  exact progress.set.group_pushAll _ name

end Progress

end ClassSymbols
