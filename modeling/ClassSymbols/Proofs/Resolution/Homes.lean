import ClassSymbols.Proofs.Loading.Records
import ClassSymbols.Proofs.Overrides.Bridges
import ClassSymbols.Proofs.Resolution.History
import Mathlib.Logic.Relation

/-!
# Homes of members

Every effective member is declared in one class with a result, or is a fake override of one result.
That result knows what the member overrides, whenever a workspace is asked for it.

## Main definitions

* `Computation.Has` — whether a result is the home of a member.
* `Offers` — whether a result was computed from the result of another class.

## Main statements

* `History.Facts.eq_of_has` — a member has one home.
* `History.exists_home` — effective members and the members that they override have homes.
* `History.Facts.successors_eq` — what a workspace knows of a member is what its home says.
-/

namespace ClassSymbols

/-- Whether a member is declared in the class of a result, or is one of the fake overrides of the
result. -/
def Computation.Has (c : Computation) (id : DeclId) : Prop :=
  id ∈ c.declared ∨ ∃ fake ∈ c.synthesis.pending, fake.id = id

def Offers (log : List Computation) (id parent : DeclId) : Prop :=
  ∃ c ∈ log, c.owner = id ∧ ∃ m ∈ c.members, m.owner = parent

variable {loads : Prop} {origin w : Workspace} {log : List Computation} {c c' : Computation}
  {x y : DeclId}

/-! ## One home -/

namespace History.Facts

variable (facts : Facts loads origin log w)
include facts

/-- No two results have a fake override in common. -/
theorem eq_of_pending (fresh : origin.Fresh) (hc : c ∈ log) (hc' : c' ∈ log)
    {fake fake' : Declaration} (hf : fake ∈ c.synthesis.pending)
    (hf' : fake' ∈ c'.synthesis.pending) (same : fake.id = fake'.id) :
    c = c' := by
  -- Of two results, the earlier one is in the history before the later one.
  have apart {a b : Computation} {before : List Computation}
    (history : History loads origin before a.before)
      (hb : b ∈ before) {log₀ : List Computation} (follows : a.Follows origin log₀)
      {fake fake' : Declaration} (hf : fake ∈ a.synthesis.pending)
        (hf' : fake' ∈ b.synthesis.pending) :
      fake.id ≠ fake'.id := by
    have facts := history.facts fresh
    have old := (facts.bounds hb hf').2
    have new := (follows.batch facts.sound).new fake hf
    intro same
    rw [same] at new
    omega
  obtain ⟨-, log₀, before, follows, suffix⟩ := facts.follows c hc
  obtain ⟨-, log₁, before', follows', suffix'⟩ := facts.follows c' hc'
  rcases List.suffix_or_suffix_of_suffix suffix suffix' with earlier | earlier <;>
    rcases List.suffix_cons_iff.1 earlier with e | earlier
  · exact (List.cons.inj e).1
  · exact absurd same.symm (apart before' (earlier.subset List.mem_cons_self) follows' hf' hf)
  · exact (List.cons.inj e).1.symm
  · exact absurd same (apart before (earlier.subset List.mem_cons_self) follows hf hf')

/-- A member has one home. -/
theorem eq_of_has (fresh : origin.Fresh) (hc : c ∈ log) (hc' : c' ∈ log) (has : c.Has x)
    (has' : c'.Has x) :
    c = c' := by
  rcases has with hd | ⟨fake, hf, rfl⟩ <;> rcases has' with hd' | ⟨fake', hf', e⟩
  · exact facts.owners c hc c' hc'
      (facts.sound.one_owner (facts.listed hc) (facts.listed hc') x hd hd')
  · exact absurd hd (e ▸ facts.hidden c' hc' fake' hf' (facts.listed hc))
  · exact absurd hd' (facts.hidden c hc fake hf (facts.listed hc'))
  · exact facts.eq_of_pending fresh hc hc' hf hf' e.symm

theorem get?_of_mem_pending (hc : c ∈ log) {fake : Declaration} (hf : fake ∈ c.synthesis.pending) :
    w.store.get? fake.id = some fake := by
  obtain ⟨sound, _, _, follows, -⟩ := facts.follows c hc
  have plain :=
    Declaration.class?_eq_none_of_isCallable (follows.isCallable_of_mem_pending sound hf).1
  exact (facts.finished c hc).2.store.get?_of_class?_eq_none
    (follows.get?_finish_of_mem_pending sound hf) plain

/-- A member that has a home is stored. -/
theorem exists_stored (hc : c ∈ log) (has : c.Has x) :
    ∃ declaration, w.store.get? x = some declaration := by
  rcases has with hd | ⟨fake, hf, rfl⟩
  · obtain ⟨sound, _, _, follows, -⟩ := facts.follows c hc
    obtain ⟨step, later⟩ := facts.finished c hc
    obtain ⟨declarations, inherited, reads, -⟩ := follows.exists_run sound
    obtain ⟨declaration, -, ok⟩ := exists_mem_of_forall₂_left (mapM_eq_ok_iff.1 reads.resolved) hd
    obtain ⟨declaration', stored, -⟩ := (step.trans later).store.kept (Store.resolve_eq_ok_iff.1 ok)
    exact ⟨declaration', stored⟩
  · exact ⟨fake, facts.get?_of_mem_pending hc hf⟩

end History.Facts

/-! ## Homes -/

theorem Offers.mono {log' : List Computation} (subset : log ⊆ log') {id parent : DeclId}
    (h : Offers log id parent) : Offers log' id parent := by
  obtain ⟨c, hc, offers⟩ := h
  exact ⟨c, subset hc, offers⟩

/-- What a class offers is of the class, or is offered by a supertype. What it overrides is offered
by a supertype. -/
theorem Computation.Follows.sources (follows : c.Follows origin log)
    (sound : c.before.store.Sound) :
    (∀ x ∈ c.synthesis.set.memberIds, c.Has x ∨ ∃ m ∈ c.members, x ∈ m.members) ∧
      ∀ y, ∀ x ∈ c.synthesis.set.overriddenBy y, ∃ m ∈ c.members, x ∈ m.members := by
  obtain ⟨declarations, inherited, reads, result, -⟩ := follows.exists_run sound
  unfold Computation.Has
  rw [result]
  refine ⟨fun x hx => ?_, fun y x overrides => ?_⟩
  · obtain ⟨member, hm, rfl⟩ := List.mem_map.1 hx
    rcases SynthesisInput.mem_members_run_iff.1 hm with
      ⟨declaration, hd, rfl⟩ | ⟨next, name, bucket, settles, joined, rfl⟩
    · exact .inl (.inl (reads.mem_declared_iff.1 hd).1)
    cases keeps : (c.input declarations).keeps bucket
    · exact .inl (.inr ⟨_, settles.fakeFor_mem_pending ⟨joined, keeps⟩,
        (SynthesisInput.id_representative_of_not_keeps keeps).symm⟩)
    · rw [SynthesisInput.representative_of_keeps keeps]
      exact .inr (reads.listed (settles.mem_inherited settles.first_mem))
  · rcases SynthesisInput.mem_overriddenBy_run_iff.1 overrides with
      ⟨member, hm, _, -, -, -, rfl⟩ | ⟨name, bucket, settles, -, hx⟩
    · exact reads.listed hm
    · obtain ⟨member, hm, rfl⟩ := List.mem_map.1 hx
      exact reads.listed (settles.mem_inherited hm)

namespace History

/-- Every effective member has a home in the class or above it. -/
theorem exists_home (fresh : origin.Fresh) (history : History loads origin log w) :
    ∀ c ∈ log, ∀ x ∈ c.synthesis.set.memberIds,
      ∃ h ∈ log, h.Has x ∧ Relation.ReflTransGen (Offers log) c.owner h.owner := by
  induction history with
  | start => simp
  | read _ _ ih => exact ih
  | load _ _ _ ih => exact ih
  | @compute log c before follows ih =>
    have above {a h : DeclId} (path : Relation.ReflTransGen (Offers log) a h) :
        Relation.ReflTransGen (Offers (c :: log)) a h :=
      Relation.ReflTransGen.mono (fun _ _ => Offers.mono (List.subset_cons_self c log)) _ _ path
    rintro other (_ | ⟨_, ho⟩) x hx
    · rcases (follows.sources (before.facts fresh).sound).1 x hx with has | ⟨m, hm, listed⟩
      · exact ⟨c, List.mem_cons_self, has, .refl⟩
      · obtain ⟨c', hc', owner, offered⟩ := follows.offered m hm
        obtain ⟨h, hh, has, path⟩ := ih c' hc' x (offered ▸ listed)
        refine ⟨h, List.mem_cons_of_mem _ hh, has, .head ?_ (above path)⟩
        exact ⟨c, List.mem_cons_self, rfl, m, hm, owner.symm⟩
    · obtain ⟨h, hh, has, path⟩ := ih other ho x hx
      exact ⟨h, List.mem_cons_of_mem _ hh, has, above path⟩

/-- What a supertype offers has a home above the class, and so has what a member of the class
overrides. -/
theorem exists_home_of_offered (fresh : origin.Fresh) (history : History loads origin log w)
    (hc : c ∈ log) {m : SupertypeMembers} (hm : m ∈ c.members) (hx : x ∈ m.members) :
    ∃ h ∈ log, h.Has x ∧ Relation.ReflTransGen (Offers log) c.owner h.owner := by
  obtain ⟨-, log₀, -, follows, suffix⟩ := (history.facts fresh).follows c hc
  obtain ⟨c', hc', owner, offered⟩ := follows.offered m hm
  have inside := suffix.subset (List.mem_cons_of_mem _ hc')
  obtain ⟨h, hh, has, path⟩ := history.exists_home fresh c' inside x (offered ▸ hx)
  exact ⟨h, hh, has, .head ⟨c, hc, rfl, m, hm, owner.symm⟩ path⟩

/-- No result was computed from itself, directly or not. -/
theorem not_offers_self (fresh : origin.Fresh) (history : History loads origin log w)
    (id : DeclId) :
    ¬Relation.TransGen (Offers log) id id := by
  induction history generalizing id with
  | start =>
    intro cycle
    obtain ⟨_, ⟨c, hc, -⟩, -⟩ := Relation.TransGen.head'_iff.1 cycle
    cases hc
  | read _ _ ih => exact ih id
  | load _ _ _ ih => exact ih id
  | @compute log c before follows ih =>
    intro cycle
    have facts := before.facts fresh
    -- The last result was used by none before it.
    have older {a b : DeclId} (offers : Offers (c :: log) a b) : b ≠ c.owner := by
      obtain ⟨d, _ | ⟨_, hd⟩, rfl, m, hm, rfl⟩ := offers
      · obtain ⟨d', hd', owner, -⟩ := follows.offered m hm
        exact owner ▸ facts.owner_ne follows hd'
      · obtain ⟨-, log₀, -, follows', suffix⟩ := facts.follows d hd
        obtain ⟨d', hd', owner, -⟩ := follows'.offered m hm
        exact owner ▸ facts.owner_ne follows (suffix.subset (List.mem_cons_of_mem _ hd'))
    have inner {a b : DeclId} (apart : a ≠ c.owner) (offers : Offers (c :: log) a b) :
        Offers log a b := by
      obtain ⟨d, _ | ⟨_, hd⟩, rfl, offered⟩ := offers
      · exact absurd rfl apart
      · exact ⟨d, hd, rfl, offered⟩
    obtain ⟨_, -, last⟩ := Relation.TransGen.tail'_iff.1 cycle
    have path {b : DeclId} (path : Relation.TransGen (Offers (c :: log)) id b) :
        Relation.TransGen (Offers log) id b := by
      induction path with
      | single offers => exact .single (inner (older last) offers)
      | tail earlier offers ih =>
        obtain ⟨_, -, offers'⟩ := Relation.TransGen.tail'_iff.1 earlier
        exact .tail ih (inner (older offers') offers)
    exact ih id (path cycle)

/-! ## What homes say -/

/-- All members stay described. -/
theorem described (fresh : origin.Fresh) (described : origin.store.Described)
    (history : History loads origin log w) :
    w.store.Described := by
  induction history with
  | start => exact described
  | read before asked ih => exact ih.classMembers (before.facts fresh).sound asked
  | load _ before batch ih => exact ih.receive (before.facts fresh).sound.toWellFormed batch
  | compute before follows ih =>
    have sound := (before.facts fresh).sound
    rw [follows.store_finish sound]
    exact ih.receive sound.toWellFormed (follows.batch sound)

end History

@[simp] theorem Declaration.overridden_unread (declaration : Declaration) :
    declaration.unread.overridden = declaration.overridden := by
  obtain ⟨_, _, _, _, _, kind⟩ := declaration
  cases kind <;> rfl

/-- What was read from a record says nothing about overriding. -/
theorem MemberRecord.Describes.overridden_eq_nil {record : MemberRecord} {context : ScopeContext}
    {declaration : Declaration} (h : record.Describes context declaration) :
    declaration.overridden = [] := by
  cases record with
  | constructor record =>
    obtain ⟨-, _, kind⟩ := h
    simp [Declaration.overridden, kind]
  | function record =>
    obtain ⟨path, read⟩ := h
    obtain ⟨_, kind, silent⟩ := Site.exists_function_of_readFunction read
    simp [Declaration.overridden, kind, silent]
  | property record =>
    obtain ⟨path, read⟩ := h
    obtain ⟨_, kind, silent⟩ := Site.exists_property_of_readProperty read
    simp [Declaration.overridden, kind, silent]
  | classifier record =>
    obtain ⟨path, read⟩ := h
    obtain ⟨_, _, hc, -⟩ := Site.exists_deferred_of_readClass read
    unfold Declaration.class? at hc
    unfold Declaration.overridden
    split at hc <;> simp_all

theorem Store.Described.overridden_eq_nil {store : Store} (h : store.Described) {id : DeclId}
    {members : List DeclId} (listed : store.members? id = some members) {member : DeclId}
    (hm : member ∈ members) :
    store.overridden member = [] := by
  obtain ⟨data, isClass, known⟩ := Store.members?_eq_some_iff.1 listed
  obtain ⟨reading, deferred, described⟩ := h.members isClass
  rw [deferred] at known
  obtain ⟨record, -, declaration, stored, describes⟩ :=
    exists_mem_of_forall₂ (described members known).2 hm
  have silent := describes.overridden_eq_nil
  rw [Declaration.overridden_unread] at silent
  simp [Store.overridden, stored, silent]

/-- A result says of each of its fake overrides that it overrides something. -/
theorem Computation.Follows.overriddenBy_ne_nil (follows : c.Follows origin log)
    (sound : c.before.store.Sound) {fake : Declaration} (hf : fake ∈ c.synthesis.pending) :
    c.synthesis.set.overriddenBy fake.id ≠ [] := by
  obtain ⟨declarations, inherited, reads, result, -⟩ := follows.exists_run sound
  rw [result] at hf ⊢
  obtain ⟨next, name, bucket, settles, made, rfl⟩ := SynthesisInput.mem_pending_run_iff.1 hf
  exact List.ne_nil_of_mem (SynthesisInput.mem_overriddenBy_run_iff.2
    (.inr ⟨name, bucket, settles, made, List.mem_map_of_mem List.mem_cons_self⟩))

/-- What a workspace knows of a member is what its home says, if stored declarations say no more
about declared members. -/
theorem History.Facts.successors_eq (facts : Facts loads origin log w) (fresh : origin.Fresh)
    (hc : c ∈ log) (has : c.Has x)
    (silent : x ∈ c.declared → c.synthesis.set.overridden.get? x = none →
      w.store.overridden x = []) :
    (w.effective.lookup w.store).successors x = c.synthesis.set.overriddenBy x := by
  change (w.effective.overridden.get? x).getD (w.store.overridden x) =
    (c.synthesis.set.overridden.get? x).getD []
  obtain ⟨sound, _, _, follows, -⟩ := facts.follows c hc
  cases found : c.synthesis.set.overridden.get? x with
  | some list => rw [facts.remembered_iff.2 ⟨c, hc, found⟩, Option.getD_some, Option.getD_some]
  | none =>
    have unknown : w.effective.overridden.get? x = none := by
      by_contra known
      obtain ⟨list, known⟩ := Option.ne_none_iff_exists'.1 known
      obtain ⟨c', hc', found'⟩ := facts.remembered_iff.1 known
      obtain ⟨sound', _, _, follows', -⟩ := facts.follows c' hc'
      obtain rfl := facts.eq_of_has fresh hc hc' has (follows'.declared_or_pending sound' found')
      simp [found] at found'
    rw [unknown, Option.getD_none, Option.getD_none]
    rcases has with hd | ⟨fake, hf, rfl⟩
    · exact silent hd found
    · exact absurd (by simp [OverrideSet.overriddenBy, found])
        (follows.overriddenBy_ne_nil sound hf)

end ClassSymbols
