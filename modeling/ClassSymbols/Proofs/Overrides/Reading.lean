import ClassSymbols.Proofs.Overrides.Outcome
import ClassSymbols.Proofs.Store.Growth

/-!
# What a synthesis reads

A synthesis that succeeds has found its declared members and the members of its supertypes in the
store. The ids that it gives out are not in use there.

## Main definitions

* `Store.DeclaredLike` — the declared members with the shape of an inherited one.
* `SynthesisInput.Collects`, `SynthesisInput.Reads` — what a run starts from.

## Main statements

* `synthesizeWith_eq_ok_iff` — a synthesis succeeds if it can read its members.
* `SynthesisInput.Collects.binds_iff` — whether a run binds an inherited member.
-/

namespace ClassSymbols

def Store.signature? (store : Store) (id : DeclId) : Option Signature :=
  (store.get? id).bind (Signature.of? · .identity)

theorem Store.exists_isCallable_of_signature? {store : Store} {id : DeclId}
    (h : (store.signature? id).isSome) :
    ∃ declaration, store.get? id = some declaration ∧ declaration.isCallable = true := by
  obtain ⟨signature, h⟩ := Option.isSome_iff_exists.1 h
  obtain ⟨declaration, stored, signed⟩ := Option.bind_eq_some_iff.1 h
  exact ⟨declaration, stored, Declaration.isCallable_of_signature signed⟩

def Store.DeclaredLike (store : Store) (declared : List DeclId) (member : Inherited) (id : DeclId)
    (signature : Signature) : Prop :=
  id ∈ declared ∧ store.signature? id = some signature ∧ signature.SameShape member.signature

theorem Store.WellFormed.id_eq {store : Store} (wf : store.WellFormed)
    {supertypes : List SupertypeMembers} {id : DeclId} {member : Inherited}
    (h : store.inheritedAs? supertypes id = some member) : member.id = id :=
  wf.keyed (Store.inheritedAs?_eq_some_iff.1 h).1

theorem Declaration.isCallable_fakeOverride (source : Declaration) (id owner : DeclId)
    (substitution : Substitution) (overridden : List DeclId) :
    (source.fakeOverride id owner substitution overridden).isCallable = source.isCallable := by
  obtain ⟨_, _, _, _, _, kind⟩ := source
  cases kind <;> rfl

theorem Declaration.visibility_fakeOverride (source : Declaration) (id owner : DeclId)
    (substitution : Substitution) (overridden : List DeclId) :
    (source.fakeOverride id owner substitution overridden).visibility = source.visibility := by
  obtain ⟨_, _, _, _, _, kind⟩ := source
  cases kind <;> rfl

theorem Declaration.overridden_fakeOverride {source : Declaration}
    (callable : source.isCallable = true) (id owner : DeclId) (substitution : Substitution)
    (overridden : List DeclId) :
    (source.fakeOverride id owner substitution overridden).overridden = overridden := by
  obtain ⟨_, _, _, _, _, kind⟩ := source
  cases kind <;> first | rfl | cases callable

/-- What a synthesis reads before it runs: the declared members, and what the supertypes offer. -/
structure SynthesisInput.Collects (input : SynthesisInput) (declared : List DeclId)
    (supertypes : List SupertypeMembers) (inherited : List Inherited) : Prop where
  keyed : ∀ {id declaration}, input.store.get? id = some declaration → declaration.id = id
  resolved : declared.mapM input.store.resolve = .ok input.declared
  offered : inheritedMembers input.store supertypes = .ok inherited

/-- What a synthesis reads in a well-formed store. -/
structure SynthesisInput.Reads (input : SynthesisInput) (declared : List DeclId)
    (supertypes : List SupertypeMembers) (inherited : List Inherited) : Prop extends
    input.Collects declared supertypes inherited where
  allocated : ∀ {id declaration}, input.store.get? id = some declaration →
    id.number < input.store.next.number

def SynthesisInput.outcome (input : SynthesisInput) (inherited : List Inherited) :
    OverrideSynthesis where
  set := (input.run inherited).set
  conflicts := (input.run inherited).conflicts
  pending := (input.run inherited).pending

/-- A synthesis succeeds if it can read its members, and then gives what a run finds. -/
theorem synthesizeWith_eq_ok_iff_of_keyed {options : SynthesisOptions} {lookup : OverriddenLookup}
    {owner : DeclId} {declared : List DeclId} {supertypes : List SupertypeMembers}
    {store store' : Store} {synthesis : OverrideSynthesis}
    (keyed : ∀ {id declaration}, store.get? id = some declaration → declaration.id = id) :
    synthesizeWith options lookup owner declared supertypes store = .ok synthesis store' ↔
      ∃ declarations inherited, SynthesisInput.Collects
        ⟨store, options, lookup, owner, declarations⟩ declared supertypes inherited ∧
        let progress := SynthesisInput.run ⟨store, options, lookup, owner, declarations⟩ inherited
        synthesis = ⟨progress.set, progress.conflicts, progress.pending⟩ ∧
          store' = { store with next := progress.next } := by
  unfold synthesizeWith
  constructor
  · intro ok
    split at ok
    · cases ok
    · next declarations resolved =>
      split at ok
      · cases ok
      · next inherited offered =>
        cases ok
        exact ⟨declarations, inherited, ⟨keyed, resolved, offered⟩, rfl, rfl⟩
  · rintro ⟨declarations, inherited, reads, rfl, rfl⟩
    have resolved := reads.resolved
    have offered := reads.offered
    simp only at resolved offered
    simp [resolved, offered]

theorem synthesizeWith_eq_ok_iff {options : SynthesisOptions} {lookup : OverriddenLookup}
    {owner : DeclId} {declared : List DeclId} {supertypes : List SupertypeMembers}
    {store store' : Store} {synthesis : OverrideSynthesis} (wf : store.WellFormed) :
    synthesizeWith options lookup owner declared supertypes store = .ok synthesis store' ↔
      ∃ declarations inherited, SynthesisInput.Reads
        ⟨store, options, lookup, owner, declarations⟩ declared supertypes inherited ∧
        let progress := SynthesisInput.run ⟨store, options, lookup, owner, declarations⟩ inherited
        synthesis = ⟨progress.set, progress.conflicts, progress.pending⟩ ∧
          store' = { store with next := progress.next } := by
  refine (synthesizeWith_eq_ok_iff_of_keyed wf.keyed).trans ?_
  refine exists₂_congr fun _ _ => and_congr_left fun _ => ?_
  exact ⟨fun collects => ⟨collects, wf.allocated⟩, fun reads => reads.toCollects⟩

/-- A synthesis succeeds if all members that it reads are stored. -/
theorem exists_synthesizeWith (options : SynthesisOptions) (lookup : OverriddenLookup)
    (owner : DeclId) {declared : List DeclId} {supertypes : List SupertypeMembers} {store : Store}
    (own : ∀ id ∈ declared, (store.get? id).isSome)
    (offered : ∀ supertype ∈ supertypes, ∀ id ∈ supertype.members, (store.get? id).isSome) :
    ∃ synthesis store', synthesizeWith options lookup owner declared supertypes store =
      .ok synthesis store' := by
  obtain ⟨declarations, found⟩ :
      ∃ declarations, declared.mapM store.resolve = .ok declarations := by
    refine exists_mapM_eq_ok fun id hid => ?_
    obtain ⟨declaration, stored⟩ := Option.isSome_iff_exists.1 (own id hid)
    exact ⟨declaration, Store.resolve_eq_ok_iff.2 stored⟩
  obtain ⟨inherited, read⟩ := exists_inheritedMembers offered
  simp only [synthesizeWith, found, read]
  exact ⟨_, _, rfl⟩

theorem synthesizeWith_eq_error {options : SynthesisOptions} {lookup : OverriddenLookup}
    {owner : DeclId} {declared : List DeclId} {supertypes : List SupertypeMembers}
    {store store' : Store} {e : SymbolError}
    (h : synthesizeWith options lookup owner declared supertypes store = .error e store') :
    store' = store := by
  unfold synthesizeWith at h
  split at h
  · cases h
    rfl
  · split at h
    · cases h
      rfl
    · cases h

namespace SynthesisInput

variable {input : SynthesisInput} {declared : List DeclId} {supertypes : List SupertypeMembers}
  {inherited : List Inherited}

namespace Collects

variable (collects : input.Collects declared supertypes inherited)
include collects

theorem mem_declared_iff {declaration : Declaration} : declaration ∈ input.declared ↔
    declaration.id ∈ declared ∧ input.store.get? declaration.id = some declaration := by
  have steps := mapM_eq_ok_iff.1 collects.resolved
  constructor
  · intro h
    obtain ⟨id, hid, ok⟩ := exists_mem_of_forall₂ steps h
    have stored := Store.resolve_eq_ok_iff.1 ok
    obtain rfl := collects.keyed stored
    exact ⟨hid, stored⟩
  · rintro ⟨hid, stored⟩
    obtain ⟨found, hf, ok⟩ := exists_mem_of_forall₂_left steps hid
    obtain rfl := Option.some.inj (stored.symm.trans (Store.resolve_eq_ok_iff.1 ok))
    exact hf

theorem mem_declaredNamed_iff {member : DeclaredMember} {name : String} :
    member ∈ input.declaredNamed name ↔ member.id ∈ declared ∧
      input.store.signature? member.id = some member.signature ∧ member.signature.name = name := by
  obtain ⟨id, signature⟩ := member
  simp only [declaredNamed, List.mem_filterMap, Store.signature?, Option.bind_eq_some_iff]
  constructor
  · rintro ⟨declaration, hd, e⟩
    split at e
    · next named =>
      obtain ⟨_, hs, e⟩ := Option.map_eq_some_iff.1 e
      obtain ⟨rfl, rfl⟩ := DeclaredMember.mk.inj e
      obtain ⟨hid, stored⟩ := collects.mem_declared_iff.1 hd
      exact ⟨hid, ⟨declaration, stored, hs⟩, (Signature.name_eq hs).trans named⟩
    · cases e
  · rintro ⟨hid, ⟨declaration, stored, hs⟩, named⟩
    obtain rfl := collects.keyed stored
    refine ⟨declaration, collects.mem_declared_iff.2 ⟨hid, stored⟩, ?_⟩
    rw [if_pos ((Signature.name_eq hs).symm.trans named), hs]
    rfl

theorem signature_name_eq {member : Inherited} (hm : member ∈ inherited) :
    member.signature.name = member.declaration.name :=
  Signature.name_eq
    (Store.inheritedAs?_eq_some_iff.1
      ((mem_inheritedMembers_iff collects.keyed collects.offered).1 hm)).2.2.2

theorem mem_inherited_iff {member : Inherited} :
    member ∈ inherited ↔ input.store.inheritedAs? supertypes member.id = some member :=
  mem_inheritedMembers_iff collects.keyed collects.offered

/-- The declared members with the shape of an inherited one are among those of its name. -/
theorem declaredLike_iff {member : Inherited} (hm : member ∈ inherited) {id : DeclId}
    {signature : Signature} : input.store.DeclaredLike declared member id signature ↔
      ⟨id, signature⟩ ∈ input.declaredNamed member.declaration.name ∧
        signature.SameShape member.signature := by
  rw [collects.mem_declaredNamed_iff, Store.DeclaredLike]
  constructor
  · rintro ⟨hid, hs, same⟩
    exact ⟨⟨hid, hs, same.2.1.trans (collects.signature_name_eq hm)⟩, same⟩
  · rintro ⟨⟨hid, hs, -⟩, same⟩
    exact ⟨hid, hs, same⟩

theorem binds_iff {member : Inherited} (hm : member ∈ inherited) : input.Binds member ↔
    ∃ id signature, input.store.DeclaredLike declared member id signature := by
  constructor
  · rintro ⟨⟨id, signature⟩, hd, same⟩
    exact ⟨id, signature, (collects.declaredLike_iff hm).2 ⟨hd, same⟩⟩
  · rintro ⟨id, signature, like⟩
    have := (collects.declaredLike_iff hm).1 like
    exact ⟨⟨id, signature⟩, this.1, this.2⟩

theorem get?_eq {member : Inherited} (hm : member ∈ inherited) :
    input.store.get? member.id = some member.declaration :=
  (Store.inheritedAs?_eq_some_iff.1 (collects.mem_inherited_iff.1 hm)).1

theorem listed {member : Inherited} (hm : member ∈ inherited) :
    ∃ supertype ∈ supertypes, member.id ∈ supertype.members := by
  have seen := (Store.inheritedAs?_eq_some_iff.1 (collects.mem_inherited_iff.1 hm)).2.1
  exact substitutionFor?_isSome_iff.1 (Option.isSome_of_mem seen)

theorem eq_of_id_eq {m n : Inherited} (hm : m ∈ inherited) (hn : n ∈ inherited)
    (same : m.id = n.id) : m = n :=
  Option.some.inj
    ((collects.mem_inherited_iff.1 hm).symm.trans (same ▸ collects.mem_inherited_iff.1 hn))

theorem isCallable {member : Inherited} (hm : member ∈ inherited) :
    member.declaration.isCallable = true :=
  Store.isCallable_of_inheritedAs? (collects.mem_inherited_iff.1 hm)

theorem nodup_ids {next : DeclId} {name : String} {bucket : Bucket}
    (settles : input.Settles inherited next name bucket) : bucket.ids.Nodup :=
  (nodup_inheritedMembers collects.keyed collects.offered).sublist (settles.sublist.map _)

/-- A fake override says that it overrides the members of its bucket. -/
theorem overridden_fakeFor {next : DeclId} {name : String} {bucket : Bucket}
    (settles : input.Settles inherited next name bucket) :
    (input.fakeFor next bucket).overridden = bucket.ids :=
  Declaration.overridden_fakeOverride
    (collects.isCallable (settles.mem_inherited (input.specificOf_mem bucket))) _ _ _ _

end Collects

namespace Reads

variable (reads : input.Reads declared supertypes inherited)
include reads

theorem wellFormed : input.store.WellFormed := ⟨reads.keyed, reads.allocated⟩

/-- The ids that a run gives out are not in use. -/
theorem get?_of_settles {next : DeclId} {name : String} {bucket : Bucket}
    (h : input.Settles inherited next name bucket) : input.store.get? next = none := by
  cases stored : input.store.get? next with
  | none => rfl
  | some declaration =>
    have below := reads.wellFormed.allocated stored
    have above := h.le
    omega

/-- A fake override takes part in overriding and can be inherited. -/
theorem isCallable_of_mem_pending {fake : Declaration} (h : fake ∈ (input.run inherited).pending) :
    fake.isCallable = true ∧ fake.visibility.isInheritable = true := by
  obtain ⟨next, name, bucket, settles, -, rfl⟩ := mem_pending_run_iff.1 h
  have specific := settles.mem_inherited (input.specificOf_mem bucket)
  have offered := Store.inheritedAs?_eq_some_iff.1 (reads.mem_inherited_iff.1 specific)
  rw [fakeFor, Declaration.isCallable_fakeOverride, Declaration.visibility_fakeOverride]
  exact ⟨reads.isCallable specific, offered.2.2.1⟩

/-- The fake overrides of a run are a batch for its store. -/
theorem batch_pending :
    input.store.Batch (input.run inherited).next (input.run inherited).pending := by
  have bounds : ∀ fake ∈ (input.run inherited).pending,
      input.store.next.number ≤ fake.id.number ∧
      fake.id.number < (input.run inherited).next.number := by
    intro fake hf
    have listed : fake.id ∈ (input.run inherited).pending.map (·.id) := List.mem_map_of_mem hf
    rw [map_id_pending_run, List.mem_map] at listed
    obtain ⟨k, hk, e⟩ := listed
    have := List.mem_range'_1.1 hk
    rw [next_run, ← e]
    exact this
  refine ⟨?_, ?_, fun fake hf => (bounds fake hf).1, fun fake hf => (bounds fake hf).2,
    fun fake hf data hc => ?_⟩
  · rw [next_run]
    exact Nat.le_add_right _ _
  · rw [map_id_pending_run]
    exact (List.nodup_range' _).map fun a b e => DeclId.mk.inj e
  · rw [Declaration.class?_eq_none_of_isCallable (reads.isCallable_of_mem_pending hf).1] at hc
    cases hc

end Reads

end SynthesisInput

end ClassSymbols
