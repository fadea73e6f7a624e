import ClassSymbols.Proofs.Overrides.StandIns
import ClassSymbols.Proofs.Store.Filling

/-!
# Accounting of inherited members

Every member that a supertype lists is accounted for in one way. It takes no part in overriding; or
declared members have its shape and are checked against it; or its bucket is joined and one member
stands for it; or its bucket is split and reported.

## Main definitions

* `Store.SharesShape` — whether two inherited members are in one bucket.
* `Accounted` — the ways to account for a listed member.

## Main statements

* `accounted_of_listed` — a synthesis accounts for every listed member.
-/

namespace ClassSymbols

def Store.SharesShape (store : Store) (supertypes : List SupertypeMembers) (a b : DeclId) : Prop :=
  ∃ m n, store.inheritedAs? supertypes a = some m ∧ store.inheritedAs? supertypes b = some n ∧
    m.signature.SameShape n.signature

namespace SynthesisInput

variable {input : SynthesisInput} {declared : List DeclId} {supertypes : List SupertypeMembers}
  {inherited : List Inherited}

namespace Reads

variable (reads : input.Reads declared supertypes inherited) {next : DeclId} {name : String}
  {bucket : Bucket} (settles : input.Settles inherited next name bucket) {member : Inherited}
  (hb : member ∈ bucket.members)
include reads settles hb

/-- A bucket holds the inherited members that share the shape of one of them. -/
theorem mem_ids_iff {x : DeclId} :
    x ∈ bucket.ids ↔ input.store.SharesShape supertypes member.id x := by
  obtain ⟨hm, named, free, shape⟩ := settles.mem_iff.1 hb
  constructor
  · intro hx
    obtain ⟨other, ho, rfl⟩ := List.mem_map.1 hx
    obtain ⟨hi, -, -, shape'⟩ := settles.mem_iff.1 ho
    exact ⟨member, other, reads.mem_inherited_iff.1 hm, reads.mem_inherited_iff.1 hi,
      shape.symm.trans shape'⟩
  · rintro ⟨m, other, hm', ho, same⟩
    obtain rfl := Option.some.inj ((reads.mem_inherited_iff.1 hm).symm.trans hm')
    obtain rfl := reads.wellFormed.id_eq ho
    have hi := reads.mem_inherited_iff.2 ho
    have named' : other.declaration.name = name := by
      rw [← named, ← reads.signature_name_eq hi, ← reads.signature_name_eq hm]
      exact same.2.1.symm
    have free' : ¬input.Binds other := by
      rintro ⟨declared, hd, like⟩
      exact free ⟨declared, named ▸ named' ▸ hd, like.trans same.symm⟩
    exact List.mem_map_of_mem (settles.mem_iff.2 ⟨hi, named', free', shape.trans same⟩)

theorem mem_ids_eq : (· ∈ bucket.ids) = input.store.SharesShape supertypes member.id :=
  funext fun _ => propext (reads.mem_ids_iff settles hb)

/-- A bucket is joined iff chains lead from one of its members to all of them. -/
theorem joined_iff : bucket.Joined input.lookup ↔
    ∀ other, input.store.SharesShape supertypes member.id other →
      input.lookup.Chained (input.store.SharesShape supertypes member.id) member.id other := by
  rw [← reads.mem_ids_eq settles hb]
  have mem (m : Inherited) (h : m ∈ bucket.members) : m.id ∈ bucket.ids := List.mem_map_of_mem h
  constructor
  · intro joined other ho
    obtain ⟨m, hm, rfl⟩ := List.mem_map.1 ho
    exact ((joined member hb).symm (mem _ settles.first_mem)).trans (joined m hm)
  · intro chained m hm
    exact ((chained _ (mem _ settles.first_mem)).symm (mem _ hb)).trans (chained _ (mem _ hm))

end Reads

end SynthesisInput

/-! ## Accounting -/

/-- The ways in which a synthesis accounts for a member that a supertype lists. -/
inductive Accounted (store : Store) (options : SynthesisOptions) (lookup : OverriddenLookup)
    (declared : List DeclId) (supertypes : List SupertypeMembers) (synthesis : OverrideSynthesis)
    (id : DeclId) : Prop
  /-- The member takes no part in overriding, and the result does not mention it. -/
  | omitted {declaration : Declaration} (stored : store.get? id = some declaration)
      (excluded : declaration.isCallable = false ∨ declaration.visibility.isInheritable = false)
      (not_overridden : ∀ x, id ∉ synthesis.set.overriddenBy x)
      (not_effective : id ∉ synthesis.set.memberIds)
      (no_conflict : ∀ conflict ∈ synthesis.conflicts, conflict.first ≠ id ∧ conflict.second ≠ id)
  /-- Declared members have its shape: each of them overrides it or is in conflict with it, and
  nothing else does. -/
  | bound {member : Inherited} (inherits : store.inheritedAs? supertypes id = some member)
      (some_like : ∃ d signature, store.DeclaredLike declared member d signature)
      (overridden : ∀ d signature, store.DeclaredLike declared member d signature →
        (id ∈ synthesis.set.overriddenBy d ↔
          signature.check member.signature options.relation store = .overridable))
      (conflicting : ∀ d signature, store.DeclaredLike declared member d signature →
        signature.check member.signature options.relation store ≠ .overridable →
        ∃ reason, signature.check member.signature options.relation store = .conflict reason ∧
          ⟨member.declaration.name, d, id, .incompatibleOverride reason⟩ ∈ synthesis.conflicts)
      (only_declared : ∀ x, id ∈ synthesis.set.overriddenBy x → x ∈ declared)
      (no_stand_in : synthesis.set.standIns id = [])
      (not_effective : id ∉ synthesis.set.memberIds)
      (only_checks : ∀ conflict ∈ synthesis.conflicts,
        conflict.first = id ∨ conflict.second = id → conflict.kind ≠ .inheritedClash)
  /-- No declared member has its shape and its bucket is joined: one member stands for it, and it is
  in no conflict. -/
  | represented {member : Inherited} {e : EffectiveMember}
      (inherits : store.inheritedAs? supertypes id = some member)
      (no_like : ∀ d signature, ¬store.DeclaredLike declared member d signature)
      (joined : ∀ other, store.SharesShape supertypes id other →
        lookup.Chained (store.SharesShape supertypes id) id other)
      (one : synthesis.set.standIns id = [e])
      (standing :
        (options.materialize = false ∧ member.unmodified = true ∧
          (∀ other, store.SharesShape supertypes id other → other = id) ∧
          e = ⟨id, .inherited⟩ ∧ ∀ x, id ∉ synthesis.set.overriddenBy x) ∨
        (¬(options.materialize = false ∧ member.unmodified = true ∧
            ∀ other, store.SharesShape supertypes id other → other = id) ∧
          store.get? e.id = none ∧ (∃ fake ∈ synthesis.pending, fake.id = e.id) ∧
          (∀ other, other ∈ synthesis.set.overriddenBy e.id ↔
            store.SharesShape supertypes id other) ∧
          (∀ x, id ∈ synthesis.set.overriddenBy x → x = e.id) ∧ id ∉ synthesis.set.memberIds))
      (no_conflict : ∀ conflict ∈ synthesis.conflicts, conflict.first ≠ id ∧ conflict.second ≠ id)
  /-- No declared member has its shape and its bucket is split: its part of the bucket is reported,
  and nothing stands for it. -/
  | clashing {member : Inherited} (inherits : store.inheritedAs? supertypes id = some member)
      (no_like : ∀ d signature, ¬store.DeclaredLike declared member d signature)
      (split : ¬∀ other, store.SharesShape supertypes id other →
        lookup.Chained (store.SharesShape supertypes id) id other)
      (reported : ∃ conflict ∈ synthesis.conflicts,
        conflict.kind = .inheritedClash ∧ conflict.name = member.declaration.name ∧
        store.SharesShape supertypes id conflict.first ∧
        store.SharesShape supertypes id conflict.second ∧
        ¬lookup.Chained (store.SharesShape supertypes id) conflict.first conflict.second ∧
        (lookup.Chained (store.SharesShape supertypes id) conflict.first id ∨
          lookup.Chained (store.SharesShape supertypes id) conflict.second id))
      (not_overridden : ∀ x, id ∉ synthesis.set.overriddenBy x)
      (no_stand_in : synthesis.set.standIns id = [])
      (not_effective : id ∉ synthesis.set.memberIds)

namespace SynthesisInput

variable {input : SynthesisInput} {declared : List DeclId} {supertypes : List SupertypeMembers}
  {inherited : List Inherited} {member : Inherited}

namespace Reads

variable (reads : input.Reads declared supertypes inherited)
  (apart : ∀ id ∈ declared, ∀ supertype ∈ supertypes, id ∉ supertype.members)
  (hm : member ∈ inherited)
include reads apart hm

/-- A member that a declared one binds is in no bucket. -/
theorem accounted_of_binds (binds : input.Binds member) :
    Accounted input.store input.options input.lookup declared supertypes (input.outcome inherited)
      member.id := by
  have unsettled {next : DeclId} {name : String} {bucket : Bucket}
      (settles : input.Settles inherited next name bucket) : member ∉ bucket.members :=
    fun hb => (settles.mem_iff.1 hb).2.2.1 binds
  have overridden (x : DeclId) : member.id ∈ (input.run inherited).set.overriddenBy x ↔
      ∃ signature, input.store.DeclaredLike declared member x signature ∧
        signature.check member.signature input.options.relation input.store = .overridable := by
    rw [reads.overriddenBy_iff hm]
    exact or_iff_left fun ⟨_, _, settles, _, hb⟩ => unsettled settles hb
  refine .bound (reads.mem_inherited_iff.1 hm) ((reads.binds_iff hm).1 binds) ?_ ?_ ?_ ?_ ?_ ?_
  · intro d signature like
    refine (overridden d).trans ⟨?_, fun checked => ⟨signature, like, checked⟩⟩
    rintro ⟨other, like', checked⟩
    obtain rfl := Option.some.inj (like.2.1.symm.trans like'.2.1)
    exact checked
  · intro d signature like failed
    have named := (reads.declaredLike_iff hm).1 like
    have related : input.check ⟨d, signature⟩ member ≠ .unrelated :=
      check_ne_unrelated_iff.2 named.2
    cases checked : signature.check member.signature input.options.relation input.store with
    | overridable => exact absurd checked failed
    | unrelated => exact absurd checked related
    | conflict reason =>
      exact ⟨reason, rfl,
        mem_conflicts_run_iff.2 (.inl ⟨member, hm, _, named.1, reason, checked, rfl⟩)⟩
  · intro x hx
    obtain ⟨_, like, -⟩ := (overridden x).1 hx
    exact like.1
  · exact reads.standIns_of_free hm apart fun _ _ _ settles _ => unsettled settles
  · intro effective
    obtain ⟨_, _, _, settles, -, -, hb⟩ := (reads.mem_memberIds_iff hm apart).1 effective
    exact unsettled settles hb
  · intro conflict hc names
    rcases reads.conflict_cases hm apart hc names with ⟨_, _, _, -, -, rfl⟩ |
      ⟨_, _, _, settles, hb, -⟩
    · simp
    · exact absurd hb (unsettled settles)

end Reads

namespace Reads

variable (reads : input.Reads declared supertypes inherited)
  {next : DeclId} {name : String} {bucket : Bucket}
  (settles : input.Settles inherited next name bucket) (hb : member ∈ bucket.members)
include reads settles hb

theorem not_declaredLike (d : DeclId) (signature : Signature) :
    ¬input.store.DeclaredLike declared member d signature := fun like =>
  have settled := settles.mem_iff.1 hb
  settled.2.2.1 ((reads.binds_iff settled.1).2 ⟨d, signature, like⟩)

/-- A settled member is overridden by the fake override of its bucket alone. -/
theorem overriddenBy_settled_iff {x : DeclId} :
    member.id ∈ (input.run inherited).set.overriddenBy x ↔
      x = next ∧ input.Materializes bucket := by
  rw [reads.overriddenBy_iff (settles.mem_inherited hb)]
  constructor
  · rintro (⟨signature, like, -⟩ | ⟨_, _, settles', made, hb'⟩)
    · exact absurd like (reads.not_declaredLike settles hb x signature)
    · obtain ⟨rfl, rfl⟩ := settles.eq settles' hb hb'
      exact ⟨rfl, made⟩
  · rintro ⟨rfl, made⟩
    exact .inr ⟨name, bucket, settles, made, hb⟩

/-- The fake override of a bucket overrides its members and no others. -/
theorem mem_overriddenBy_next_iff (made : input.Materializes bucket) {x : DeclId} :
    x ∈ (input.run inherited).set.overriddenBy next ↔
      input.store.SharesShape supertypes member.id x := by
  rw [mem_overriddenBy_run_iff, ← reads.mem_ids_iff settles hb]
  constructor
  · rintro (⟨_, _, d, hd, -, rfl, -⟩ | ⟨_, _, settles', made', hx⟩)
    · have fresh := reads.get?_of_settles settles
      have known := (reads.mem_declaredNamed_iff.1 hd).2.1
      simp [Store.signature?, fresh] at known
    · exact settles'.eq_of_materializes settles made' made ▸ hx
  · exact fun hx => .inr ⟨name, bucket, settles, made, hx⟩

/-- A member represents itself if it is alone in its bucket and looks like it, unless fake overrides
are made for such members too. -/
theorem keeps_iff_alone : input.keeps bucket = true ↔ input.options.materialize = false ∧
    member.unmodified = true ∧
    ∀ other, input.store.SharesShape supertypes member.id other → other = member.id := by
  rw [keeps_iff]
  simp only [← reads.mem_ids_iff settles hb]
  constructor
  · rintro ⟨single, unmodified, kept⟩
    have only : bucket.members = [bucket.first] := by rw [Bucket.members, single]
    obtain rfl : member = bucket.first := List.mem_singleton.1 (only ▸ hb)
    exact ⟨kept, unmodified, fun other ho => by simpa [Bucket.ids, only] using ho⟩
  · rintro ⟨kept, unmodified, alone⟩
    have nodup := reads.nodup_ids settles
    have same (m : Inherited) (hm : m ∈ bucket.members) : m.id = member.id :=
      alone _ (List.mem_map_of_mem hm)
    have single : bucket.others = [] := by
      refine List.eq_nil_iff_forall_not_mem.2 fun m hm => ?_
      have apart := (List.nodup_cons.1 nodup).1
      refine apart (List.mem_map.2 ⟨m, hm, ?_⟩)
      exact (same m (List.mem_cons_of_mem _ hm)).trans (same _ settles.first_mem).symm
    have only : bucket.members = [bucket.first] := by rw [Bucket.members, single]
    obtain rfl : member = bucket.first := List.mem_singleton.1 (only ▸ hb)
    exact ⟨single, unmodified, kept⟩

variable (apart : ∀ id ∈ declared, ∀ supertype ∈ supertypes, id ∉ supertype.members)
include apart

/-- A member of a joined bucket is in no conflict. -/
theorem no_conflict_of_joined (joined : bucket.Joined input.lookup) :
    ∀ conflict ∈ (input.run inherited).conflicts,
      conflict.first ≠ member.id ∧ conflict.second ≠ member.id := by
  intro conflict hc
  rw [← not_or]
  intro names
  rcases reads.conflict_cases (settles.mem_inherited hb) apart hc names with
    ⟨d, signature, _, like, -, -⟩ | ⟨_, _, _, settles', hb', split⟩
  · exact reads.not_declaredLike settles hb d signature like
  · obtain ⟨-, rfl⟩ := settles.eq settles' hb hb'
    exact split joined

theorem accounted_of_joined (joined : bucket.Joined input.lookup) :
    Accounted input.store input.options input.lookup declared supertypes (input.outcome inherited)
      member.id := by
  have hm := settles.mem_inherited hb
  refine .represented (reads.mem_inherited_iff.1 hm) (reads.not_declaredLike settles hb)
    ((reads.joined_iff settles hb).1 joined) (reads.standIns_of_joined hm apart settles joined hb)
    ?_ (reads.no_conflict_of_joined settles hb apart joined)
  have overridden {x : DeclId} := reads.overriddenBy_settled_iff settles hb (x := x)
  have alone := reads.keeps_iff_alone settles hb
  cases keeps : input.keeps bucket
  · have made : input.Materializes bucket := ⟨joined, keeps⟩
    have id : (input.representative next bucket).id = next := id_representative_of_not_keeps keeps
    refine .inr ⟨fun h => by simp [alone.2 h] at keeps, ?_, ?_, ?_, ?_, ?_⟩
    · rw [id]
      exact reads.get?_of_settles settles
    · exact ⟨_, settles.fakeFor_mem_pending made, id.symm⟩
    · rw [id]
      exact fun other => reads.mem_overriddenBy_next_iff settles hb made
    · exact fun x hx => (overridden.1 hx).1.trans id.symm
    · intro effective
      obtain ⟨_, _, _, settles', -, keeps', hb'⟩ := (reads.mem_memberIds_iff hm apart).1 effective
      obtain ⟨-, rfl⟩ := settles.eq settles' hb hb'
      simp [keeps'] at keeps
  · obtain ⟨kept, unmodified, only⟩ := alone.1 keeps
    refine .inl ⟨kept, unmodified, only, ?_, fun x hx => by simp [(overridden.1 hx).2.2] at keeps⟩
    have same : bucket.first.id = member.id :=
      only _ ((reads.mem_ids_iff settles hb).1 (List.mem_map_of_mem settles.first_mem))
    rw [representative_of_keeps keeps, same]

theorem accounted_of_split (split : ¬bucket.Joined input.lookup) :
    Accounted input.store input.options input.lookup declared supertypes (input.outcome inherited)
      member.id := by
  have hm := settles.mem_inherited hb
  have named := (settles.mem_iff.1 hb).2.1
  have own {next' : DeclId} {name' : String} {bucket' : Bucket}
      (settles' : input.Settles inherited next' name' bucket')
        (joined : bucket'.Joined input.lookup) :
      member ∉ bucket'.members := by
    intro hb'
    obtain ⟨-, rfl⟩ := settles.eq settles' hb hb'
    exact split joined
  refine .clashing (reads.mem_inherited_iff.1 hm) (reads.not_declaredLike settles hb)
    (fun joined => split ((reads.joined_iff settles hb).2 joined)) ?_ ?_ ?_ ?_
  · have mem (m : Inherited) (h : m ∈ bucket.members) :
        input.store.SharesShape supertypes member.id m.id :=
      (reads.mem_ids_iff settles hb).1 (List.mem_map_of_mem h)
    have report {i : Nat} {head : Inherited} (hi : bucket.Heads input.lookup i)
        (hh : bucket.members[i]? = some head) :
        ⟨name, bucket.first.id, head.id, .inheritedClash⟩ ∈ (input.run inherited).conflicts :=
      mem_conflicts_run_iff.2 (.inr ⟨next, name, bucket, settles, i, head, hi, hh, rfl⟩)
    have first := settles.first_mem
    rw [← reads.mem_ids_eq settles hb] at mem ⊢
    rcases @Bucket.chained_or_exists_head input.lookup _ _ hb with chained |
      ⟨i, head, hi, hh, chained⟩
    · obtain ⟨i, hi⟩ : ∃ i, bucket.Heads input.lookup i := by
        simpa [Bucket.joined_iff] using split
      obtain ⟨head, hh⟩ := hi.getElem?
      exact ⟨_, report hi hh, rfl, named.symm, mem _ first, mem _ (List.mem_of_getElem? hh),
        Bucket.not_chained_of_heads hi hh, .inl chained⟩
    · exact ⟨_, report hi hh, rfl, named.symm, mem _ first, mem _ (List.mem_of_getElem? hh),
        Bucket.not_chained_of_heads hi hh, .inr chained⟩
  · exact fun x hx => split ((reads.overriddenBy_settled_iff settles hb).1 hx).2.1
  · exact reads.standIns_of_free hm apart fun _ _ _ settles' joined => own settles' joined
  · intro effective
    obtain ⟨_, _, _, settles', joined, -, hb'⟩ := (reads.mem_memberIds_iff hm apart).1 effective
    exact own settles' joined hb'

end Reads

end SynthesisInput

/-- A synthesis accounts for every member that a supertype lists. -/
theorem accounted_of_listed {store store' : Store} {options : SynthesisOptions}
    {lookup : OverriddenLookup} {owner : DeclId} {declared : List DeclId}
    {supertypes : List SupertypeMembers} {synthesis : OverrideSynthesis} {id : DeclId}
    (wf : store.WellFormed)
    (apart : ∀ id ∈ declared, ∀ supertype ∈ supertypes, id ∉ supertype.members)
    (ok : synthesizeWith options lookup owner declared supertypes store = .ok synthesis store')
    (listed : ∃ supertype ∈ supertypes, id ∈ supertype.members) :
    Accounted store options lookup declared supertypes synthesis id := by
  obtain ⟨declarations, inherited, reads, rfl, -⟩ := (synthesizeWith_eq_ok_iff wf).1 ok
  cases inherits : store.inheritedAs? supertypes id with
  | none =>
    obtain ⟨declaration, stored⟩ := exists_get?_of_listed reads.offered listed
    obtain ⟨h1, h2, h3⟩ := reads.omits_of_not_inherited apart listed inherits
    exact .omitted stored ((Store.inheritedAs?_eq_none_iff stored listed).1 inherits) h1 h2 h3
  | some member =>
    obtain rfl := wf.id_eq inherits
    have hm := reads.mem_inherited_iff.2 inherits
    by_cases binds : SynthesisInput.Binds ⟨store, options, lookup, owner, declarations⟩ member
    · exact reads.accounted_of_binds apart hm binds
    · obtain ⟨next, bucket, settles, hb⟩ := SynthesisInput.exists_settles hm binds
      by_cases joined : bucket.Joined lookup
      · exact reads.accounted_of_joined settles hb apart joined
      · exact reads.accounted_of_split settles hb apart joined

/-- A class that extends two classes with a function `f` each accounts for both of them. -/
theorem accounted_of_two_supertypes :
    let store := ((Store.empty.reserve.reserve.insert (.plainFunction ⟨1⟩ ⟨7⟩ .nullableAny)).insert
      (.plainFunction ⟨2⟩ ⟨8⟩ .nullableAny))
    let supertypes : List SupertypeMembers :=
      [⟨.nullableAny, ⟨7⟩, [⟨1⟩]⟩, ⟨.nullableAny, ⟨8⟩, [⟨2⟩]⟩]
    ∃ synthesis store',
      synthesizeWith {} store.overriddenLookup ⟨9⟩ [] supertypes store = .ok synthesis store' ∧
      ∀ id ∈ [(⟨1⟩ : DeclId), ⟨2⟩],
        Accounted store {} store.overriddenLookup [] supertypes synthesis id := by
  intro store supertypes
  have wf : store.WellFormed :=
    (Store.WellFormed.empty.reserve.reserve.insert (by decide)).insert (by decide)
  refine ⟨_, _, rfl, fun id hid => accounted_of_listed wf (by simp) rfl ?_⟩
  simp only [List.mem_cons, List.not_mem_nil, or_false] at hid
  rcases hid with rfl | rfl
  · exact ⟨_, List.mem_cons_self, List.mem_cons_self⟩
  · exact ⟨_, List.mem_cons_of_mem _ List.mem_cons_self, List.mem_cons_self⟩

end ClassSymbols
