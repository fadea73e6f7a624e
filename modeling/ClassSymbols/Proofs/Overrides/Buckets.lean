import ClassSymbols.Proofs.Overrides.Inheritance
import Mathlib.Data.List.Induction

/-!
# Groups and buckets

A group holds all members of its name, and a bucket all members of its shape, in the order in which
they are listed. No two buckets have one shape, so each member is in exactly one bucket of one
group.

## Main definitions

* `Bucketed` — the buckets that a list of members falls into.

## Main statements

* `mem_groupByName_iff` — the entries of a grouped list.
* `bucketed_bucketByShape`, `sublist_first_bucketByShape` — the buckets of a list of members, and
  their order.
-/

namespace ClassSymbols

/-! ## Groups -/

theorem groupByName_concat (members : List Inherited) (member : Inherited) :
    groupByName (members ++ [member]) = (groupByName members).alter member.declaration.name
      fun group => group.getD [] ++ [member] := by
  simp [groupByName, List.foldl_append]

/-- The names come in the order of their first members. -/
theorem keys_groupByName (members : List Inherited) :
    (groupByName members).keys = (members.map (·.declaration.name)).eraseDups := by
  rw [groupByName, OrderedMap.keys_foldl_alter]
  simp

theorem getD_groupByName (members : List Inherited) (name : String) :
    ((groupByName members).get? name).getD [] =
      members.filter fun member => member.declaration.name = name := by
  have grouped :=
    OrderedMap.getD_foldl_alter (·.declaration.name) (fun member => member) members .empty name
  rw [List.map_id'] at grouped
  exact grouped

theorem get?_groupByName_ne_nil (members : List Inherited) (name : String) :
    (groupByName members).get? name ≠ some [] := by
  induction members using List.reverseRecOn with
  | nil => simp [groupByName]
  | append_singleton members member ih =>
    rw [groupByName_concat, OrderedMap.get?_alter]
    split
    · simp
    · exact ih

/-- A group is not empty and holds all members of its name. -/
theorem mem_groupByName_iff {members group : List Inherited} {name : String} :
    (name, group) ∈ (groupByName members).entries ↔
      group ≠ [] ∧ group = members.filter fun member => member.declaration.name = name := by
  rw [OrderedMap.mem_entries_iff, ← getD_groupByName]
  have nonempty := get?_groupByName_ne_nil members name
  cases h : (groupByName members).get? name with
  | none => simp
  | some found =>
    rw [h] at nonempty
    simp only [Option.getD_some, Option.some.injEq]
    constructor
    · rintro rfl
      exact ⟨fun e => nonempty (congrArg some e), rfl⟩
    · exact fun h => h.2.symm

/-! ## Buckets -/

/-- Whether a bucket holds the members of a shape. -/
abbrev Bucket.HasShape (bucket : Bucket) (member : Inherited) : Prop :=
  bucket.first.signature.SameShape member.signature

theorem addToBuckets_of_new {member : Inherited} {buckets : List Bucket}
    (new : ∀ bucket ∈ buckets, ¬bucket.HasShape member) :
    addToBuckets member buckets = buckets ++ [⟨member, []⟩] := by
  induction buckets with
  | nil => rfl
  | cons bucket rest ih =>
    rw [addToBuckets, if_neg (new _ List.mem_cons_self),
      ih fun other ho => new other (List.mem_cons_of_mem _ ho), List.cons_append]

theorem addToBuckets_of_known {member : Inherited} {before after : List Bucket} {bucket : Bucket}
    (new : ∀ bucket ∈ before, ¬bucket.HasShape member) (known : bucket.HasShape member) :
    addToBuckets member (before ++ bucket :: after) =
      before ++ { bucket with others := bucket.others ++ [member] } :: after := by
  induction before with
  | nil => rw [List.nil_append, addToBuckets, if_pos known, List.nil_append]
  | cons other rest ih =>
    rw [List.cons_append, addToBuckets, if_neg (new _ List.mem_cons_self),
      ih fun other ho => new other (List.mem_cons_of_mem _ ho), List.cons_append]

/-- A list of members falls into buckets: each holds all members of its shape in their order, no two
have one shape, and each member has the shape of one. -/
structure Bucketed (members : List Inherited) (buckets : List Bucket) : Prop where
  members_eq : ∀ bucket ∈ buckets,
    bucket.members = members.filter fun member => bucket.HasShape member
  exists_bucket : ∀ member ∈ members, ∃ bucket ∈ buckets, bucket.HasShape member
  pairwise : buckets.Pairwise fun a b => ¬a.HasShape b.first

theorem Bucketed.add_known {members : List Inherited} {before after : List Bucket}
    {bucket : Bucket} {member : Inherited} (h : Bucketed members (before ++ bucket :: after))
    (new : ∀ other ∈ before, ¬other.HasShape member) (known : bucket.HasShape member) :
    Bucketed (members ++ [member])
      (before ++ { bucket with others := bucket.others ++ [member] } :: after) := by
  have later : ∀ other ∈ after, ¬other.HasShape member := fun other ho hs =>
    (List.pairwise_cons.1 (List.pairwise_append.1 h.pairwise).2.1).1 other ho (known.trans hs.symm)
  have unchanged : ∀ other ∈ before ++ bucket :: after, ¬other.HasShape member →
      other.members = (members ++ [member]).filter fun m => other.HasShape m := by
    intro other ho hs
    simpa [List.filter_append, hs] using h.members_eq other ho
  refine ⟨?_, ?_, ?_⟩
  · intro other ho
    rcases List.mem_append.1 ho with ho | ho
    · exact unchanged other (List.mem_append_left _ ho) (new other ho)
    · rcases List.mem_cons.1 ho with rfl | ho
      · have filled := h.members_eq bucket (by simp)
        simp only [Bucket.members, List.filter_append] at filled ⊢
        rw [← filled]
        simp [show bucket.first.signature.SameShape member.signature from known]
      · exact unchanged other (by simp [ho]) (later other ho)
  · intro m hm
    rcases List.mem_append.1 hm with hm | hm
    · obtain ⟨other, ho, hs⟩ := h.exists_bucket m hm
      rcases List.mem_append.1 ho with ho | ho
      · exact ⟨other, List.mem_append_left _ ho, hs⟩
      · rcases List.mem_cons.1 ho with rfl | ho
        · exact ⟨_, List.mem_append_right _ List.mem_cons_self, hs⟩
        · exact ⟨other, by simp [ho], hs⟩
    · obtain rfl := List.mem_singleton.1 hm
      exact ⟨_, List.mem_append_right _ List.mem_cons_self, known⟩
  · have pairwise := h.pairwise
    simp only [List.pairwise_append, List.pairwise_cons, List.mem_cons, forall_eq_or_imp]
      at pairwise ⊢
    exact pairwise

theorem Bucketed.add_new {members : List Inherited} {buckets : List Bucket} {member : Inherited}
    (h : Bucketed members buckets) (new : ∀ bucket ∈ buckets, ¬bucket.HasShape member) :
    Bucketed (members ++ [member]) (buckets ++ [⟨member, []⟩]) := by
  refine ⟨?_, ?_, ?_⟩
  · intro other ho
    rcases List.mem_append.1 ho with ho | ho
    · simpa [List.filter_append, new other ho] using h.members_eq other ho
    · obtain rfl := List.mem_singleton.1 ho
      have none : members.filter (fun m => (⟨member, []⟩ : Bucket).HasShape m) = [] := by
        refine List.filter_eq_nil_iff.2 fun m hm hs => ?_
        obtain ⟨bucket, hb, hbs⟩ := h.exists_bucket m hm
        exact new bucket hb (hbs.trans (of_decide_eq_true hs).symm)
      rw [List.filter_append, none]
      simp [Bucket.members, Signature.SameShape.refl]
  · intro m hm
    rcases List.mem_append.1 hm with hm | hm
    · obtain ⟨bucket, hb, hs⟩ := h.exists_bucket m hm
      exact ⟨bucket, List.mem_append_left _ hb, hs⟩
    · obtain rfl := List.mem_singleton.1 hm
      exact ⟨⟨m, []⟩, by simp, Signature.SameShape.refl _⟩
  · refine List.pairwise_append.2 ⟨h.pairwise, by simp, fun a ha b hb => ?_⟩
    obtain rfl := List.mem_singleton.1 hb
    exact new a ha

theorem Bucketed.add {members : List Inherited} {buckets : List Bucket} {member : Inherited}
    (h : Bucketed members buckets) :
    Bucketed (members ++ [member]) (addToBuckets member buckets) := by
  cases found : buckets.find? fun bucket => bucket.HasShape member with
  | none =>
    have new : ∀ bucket ∈ buckets, ¬bucket.HasShape member := by simpa using found
    rw [addToBuckets_of_new new]
    exact h.add_new new
  | some bucket =>
    obtain ⟨known, before, after, rfl, new⟩ := List.find?_eq_some_iff_append.1 found
    have new : ∀ other ∈ before, ¬other.HasShape member := by simpa using new
    rw [addToBuckets_of_known new (of_decide_eq_true known)]
    exact h.add_known new (of_decide_eq_true known)

/-- What members fall into are their buckets. -/
theorem bucketed_bucketByShape (members : List Inherited) :
    Bucketed members (bucketByShape members) := by
  induction members using List.reverseRecOn with
  | nil => exact ⟨by simp [bucketByShape], by simp, by simp [bucketByShape]⟩
  | append_singleton members member ih =>
    rw [bucketByShape, List.foldl_append]
    exact ih.add

/-- A member is added to a bucket or starts the last one. -/
theorem map_first_addToBuckets (member : Inherited) (buckets : List Bucket) :
    (addToBuckets member buckets).map (·.first) = buckets.map (·.first) ∨
      (addToBuckets member buckets).map (·.first) = buckets.map (·.first) ++ [member] := by
  induction buckets with
  | nil => exact .inr rfl
  | cons bucket rest ih =>
    by_cases known : bucket.HasShape member
    · exact .inl (by rw [addToBuckets, if_pos known]; rfl)
    · rw [addToBuckets, if_neg known, List.map_cons, List.map_cons, List.cons_append]
      exact ih.imp (congrArg _) (congrArg _)

/-- The buckets come in the order of their first members. -/
theorem sublist_first_bucketByShape (members : List Inherited) :
    ((bucketByShape members).map (·.first)).Sublist members := by
  induction members using List.reverseRecOn with
  | nil => exact .slnil
  | append_singleton members member ih =>
    rw [bucketByShape, List.foldl_append]
    change ((addToBuckets member (bucketByShape members)).map (·.first)).Sublist _
    rcases map_first_addToBuckets member (bucketByShape members) with same | last
    · rw [same]
      exact ih.trans (List.sublist_append_left ..)
    · rw [last]
      exact ih.append_right _

end ClassSymbols
