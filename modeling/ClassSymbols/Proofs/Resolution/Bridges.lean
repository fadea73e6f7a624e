import ClassSymbols.Proofs.Overrides.Bridges
import ClassSymbols.Proofs.Resolution.Hierarchy
import ClassSymbols.Proofs.Resolution.Homes

/-!
# Fake overrides in hierarchies

Nothing checks a fake override against the members that it stands for. It looks as the first of them
that no other one reaches, and it validly overrides another one if and only if that member does.

## Main definitions

* `Store.Scoped` — stores in which the types of members and of supertypes are in scope.
* `Workspace.Fits` — whether one signature validly overrides another one.
* `Workspace.Later` — whether a workspace was reached from another one by queries.

## Main statements

* `Computation.Follows.apart` — no class offers a member to the class that declares it.
* `fits_iff_unreached` — which members a fake override validly overrides.
-/

namespace ClassSymbols

/-- Whether the types of all members are in scope, and supertypes mention no type parameters of
members. -/
structure Store.Scoped (store : Store) : Prop where
  members : ∀ {id declaration}, store.get? id = some declaration → declaration.isCallable = true →
    declaration.Scoped store.next
  supertypes : ∀ {id data}, store.IsClass id data → ∀ supertype ∈ data.supertypes,
    ∀ ref ∈ supertype.parameters, ref.owner.number < store.next.number ∧
      ∀ declaration, store.get? ref.owner = some declaration → declaration.isCallable = false

theorem Declaration.Scoped.mono {declaration : Declaration} {bound bound' : DeclId}
    (h : declaration.Scoped bound) (le : bound.number ≤ bound'.number) :
    declaration.Scoped bound' :=
  ⟨fun type ht ref hr => Nat.lt_of_lt_of_le (h.below type ht ref hr) le, h.own⟩

/-! ## Members of one class -/

section Sources

variable {loads : Prop} {origin : Workspace} {log : List Computation}

/-- No class offers a member to the class that declares it. -/
theorem Computation.Follows.apart {c : Computation} (follows : c.Follows origin log)
    (fresh : origin.Fresh) (before : History loads origin log c.before) :
    ∀ id ∈ c.declared, ∀ m ∈ c.members, id ∉ m.members := by
  intro id hd m hm listed
  have facts := before.facts fresh
  obtain ⟨c', hc', -, offered⟩ := follows.offered m hm
  obtain ⟨c'', hc'', declared | ⟨fake, hf, rfl⟩, -⟩ :=
    before.exists_home fresh c' hc' id (offered ▸ listed)
  · exact facts.owner_ne follows hc''
      (facts.sound.one_owner (facts.listed hc'') follows.listed id declared hd)
  · exact facts.hidden c'' hc'' fake hf follows.listed hd

end Sources

/-! ## Scopes -/

namespace Computation.Follows

variable {loads : Prop} {c : Computation} {origin : Workspace} {log : List Computation}
  (follows : c.Follows origin log) (fresh : origin.Fresh)
  (before : History loads origin log c.before) (inScope : c.before.store.Scoped)
include follows fresh before inScope

/-- The substitution of a supertype has nothing to do with the members that are offered. -/
theorem foreign {member : Inherited}
    (seen : c.before.store.inheritedAs? c.members member.id = some member) :
    member.substitution.Foreign member.id c.before.store.next := by
  have callable := Store.isCallable_of_inheritedAs? seen
  obtain ⟨stored, substituted, -, -⟩ := Store.inheritedAs?_eq_some_iff.1 seen
  obtain ⟨s, hs, e⟩ := exists_of_substitutionFor? substituted
  rw [e]
  have listed : s.supertype ∈ c.supertypes := by
    have matched : (s.supertype, s.owner) ∈ c.members.map fun m => (m.supertype, m.owner) :=
    List.mem_map_of_mem hs
    rw [follows.matched, List.mem_filterMap] at matched
    obtain ⟨⟨supertype, owner⟩, zipped, found⟩ := matched
    obtain ⟨_, -, e⟩ := Option.map_eq_some_iff.1 found
    exact (Prod.mk.inj e).1 ▸ (List.of_mem_zip zipped).1
  obtain ⟨data, isClass, supertypes⟩ := follows.isClass
  refine Substitution.foreign_ofSupertype ?_ fun ref hr => ?_
  · -- The owner of the offered members is a class.
    obtain ⟨c', hc', owner, -⟩ := follows.offered s hs
    have result := (before.facts fresh).result?_eq hc'
    obtain ⟨declaration, at_owner, found⟩ := Option.bind_eq_some_iff.1 result
    obtain ⟨data', hd, -⟩ := Option.bind_eq_some_iff.1 found
    intro same
    rw [owner, same] at at_owner
    obtain rfl := Option.some.inj (stored.symm.trans at_owner)
    simp [Declaration.class?_eq_none_of_isCallable callable] at hd
  · obtain ⟨below, other⟩ := inScope.supertypes isClass s.supertype (supertypes ▸ listed) ref hr
    refine ⟨fun same => ?_, below⟩
    have plain := other member.declaration (same ▸ stored)
    simp [callable] at plain

/-- The types of the fake overrides of a result are in scope. -/
theorem scoped_finish : c.finish.store.Scoped := by
  have sound := (before.facts fresh).sound
  have batch := follows.batch sound
  have foreign := fun member => @foreign _ c origin log follows fresh before inScope member
  have made := fun fake => @isCallable_of_mem_pending c origin log follows sound fake
  rw [follows.store_finish sound]
  refine ⟨fun {id declaration} stored callable => ?_,
    fun {id data} stored supertype hs ref hr => ?_⟩
  · rw [Store.next_receive]
    rcases Store.get?_receive_cases stored with old | ⟨hf, rfl⟩
    · exact (inScope.members old callable).mono batch.next_le
    · obtain ⟨declarations, inherited, reads, result, -⟩ := follows.exists_run sound
      have allocated := batch.allocated declaration hf
      rw [result] at hf
      obtain ⟨next, name, bucket, settles, -, rfl⟩ := SynthesisInput.mem_pending_run_iff.1 hf
      have specific := settles.mem_inherited ((c.input declarations).specificOf_mem bucket)
      have seen := reads.mem_inherited_iff.1 specific
      exact (inScope.members (reads.get?_eq specific) (reads.isCallable specific)).fakeOverride
        (foreign _ seen) settles.le allocated
  · obtain ⟨declaration, stored, hc⟩ := stored
    rcases Store.get?_receive_cases stored with old | ⟨hf, -⟩
    · obtain ⟨below, other⟩ := inScope.supertypes ⟨declaration, old, hc⟩ supertype hs ref hr
      rw [Store.next_receive, batch.get?_receive_of_old below]
      exact ⟨Nat.lt_of_lt_of_le below batch.next_le, other⟩
    · simp [Declaration.class?_eq_none_of_isCallable (made _ hf).1] at hc

end Computation.Follows

/-- The types of all members stay in scope. -/
theorem History.scoped {origin w : Workspace} {log : List Computation} (fresh : origin.Fresh)
    (complete : origin.store.Complete) (inScope : origin.store.Scoped)
    (history : History False origin log w) :
    w.store.Scoped := by
  induction history with
  | start => exact inScope
  | read before asked ih =>
    have known :=
      (before.still fresh complete).complete_between (before.facts fresh).later.store (.refl _)
    rw [eq_of_classMembers_of_complete known asked]
    exact ih
  | load loads => exact loads.elim
  | compute before follows ih => exact follows.scoped_finish fresh before ih

/-! ## Fits -/

/-- The signature of a member as a class sees it through the supertype that it comes from. -/
def Workspace.seen? (w : Workspace) (id member : DeclId) : Option Signature :=
  (w.store.inheritedAs? (w.supertypesOf id) member).map (·.signature)

/-- Whether one signature validly overrides another one. -/
def Workspace.Fits (w : Workspace) (signature other : Option Signature) : Prop :=
  (signature.bind fun a => other.map fun b => a.check b w.effective.options.relation w.store) =
    some .overridable

instance (w : Workspace) (signature other : Option Signature) :
    Decidable (w.Fits signature other) :=
  inferInstanceAs (Decidable (_ = _))

theorem Workspace.fits_self (w : Workspace) (reflexive : w.effective.options.relation.Reflexive)
    (signature : Signature) : w.Fits (some signature) (some signature) :=
  congrArg some (Signature.check_self reflexive signature w.store)

theorem Store.Extends.inheritedAs? {s t : Store} (h : s.Extends t)
    {supertypes : List SupertypeMembers} {id : DeclId} {member : Inherited}
    (seen : s.inheritedAs? supertypes id = some member) :
    t.inheritedAs? supertypes id = some member := by
  obtain ⟨stored, substituted, inheritable, signed⟩ := Store.inheritedAs?_eq_some_iff.1 seen
  have plain := Declaration.class?_eq_none_of_isCallable (Store.isCallable_of_inheritedAs? seen)
  exact Store.inheritedAs?_eq_some_iff.2
    ⟨h.get?_of_class?_eq_none stored plain, substituted, inheritable, signed⟩

namespace History.Facts

variable {origin w : Workspace} {log : List Computation} (facts : Facts False origin log w)
  (fresh : origin.Fresh) (still : origin.store.Still w.store) (inScope : origin.store.Scoped)
  {c : Computation} (hc : c ∈ log)
include facts fresh still inScope hc

/-- A member that is not declared and stands for other members looks as the first of them that no
other one reaches. -/
theorem exists_unreached {s : EffectiveMember} (hs : s ∈ c.synthesis.set.members)
    (synthesized : s.origin ≠ .declared) (stands : c.synthesis.set.overriddenBy s.id ≠ []) :
    ∃ source signature,
      (c.before.effective.lookup c.before.store).unreached? (c.synthesis.set.overriddenBy s.id) =
        some source ∧
      w.store.signature? s.id = some signature ∧ w.seen? c.owner source = some signature := by
  have supertypes := facts.supertypesOf_eq hc fresh still
  have finished := facts.finished c hc
  obtain ⟨sound, _, before, follows, -⟩ := facts.follows c hc
  have scopes := before.scoped fresh still.complete inScope
  have foreign :=
    fun member => @Computation.Follows.foreign _ _ _ _ follows fresh before scopes member
  have received :=
    fun fake => @Computation.Follows.get?_finish_of_mem_pending _ _ _ follows sound fake
  obtain ⟨declarations, inherited, reads, result, -⟩ := follows.exists_run sound
  rw [result] at hs stands received ⊢
  rcases SynthesisInput.mem_members_run_iff.1 hs with
    ⟨_, -, rfl⟩ | ⟨next, name, bucket, settles, joined, rfl⟩
  · exact absurd rfl synthesized
  have specific := settles.mem_inherited ((c.input declarations).specificOf_mem bucket)
  have seen := reads.mem_inherited_iff.1 specific
  cases keeps : (c.input declarations).keeps bucket
  · have made : (c.input declarations).Materializes bucket := ⟨joined, keeps⟩
    have list : ((c.input declarations).outcome inherited).set.overriddenBy next = bucket.ids :=
      reads.overriddenBy_next settles made
    rw [SynthesisInput.id_representative_of_not_keeps keeps, list]
    refine ⟨_, ((c.input declarations).specificOf bucket).signature,
      reads.unreached?_ids settles, ?_, ?_⟩
    · -- The fake override is stored as the run made it.
      have fake := settles.fakeFor_mem_pending made
      have plain :=
        Declaration.class?_eq_none_of_isCallable (reads.isCallable_of_mem_pending fake).1
      have stored := finished.2.store.get?_of_class?_eq_none (received _ fake) plain
      have source := scopes.members (reads.get?_eq specific) (reads.isCallable specific)
      exact (congrArg (Option.bind · (Signature.of? · .identity)) stored).trans
        (reads.signature_fakeFor settles source (foreign _ seen))
    · have seen := (finished.1.trans finished.2).store.inheritedAs? seen
      rw [Workspace.seen?, supertypes]
      exact congrArg (Option.map (·.signature)) seen
  · rw [SynthesisInput.representative_of_keeps keeps] at stands
    exact absurd (reads.overriddenBy_kept settles keeps) stands

end History.Facts

/-! ## Validity -/

/-- Whether a workspace was reached from another one: its store has grown, and no result was
lost. -/
structure Workspace.Later (w w' : Workspace) : Prop where
  store : w.store.Grows w'.store
  options : w'.effective.options = w.effective.options
  cached : ∀ {key result}, w.effective.cache.get? key = some result →
    w'.effective.cache.get? key = some result
  remembered : ∀ {id list}, w.effective.overridden.get? id = some list →
    w'.effective.overridden.get? id = some list

theorem Workspace.LeadsTo.later {w w' : Workspace} (h : w.LeadsTo w')
    (grows : w.store.Grows w'.store) : w.Later w' :=
  ⟨grows, h.options, h.cached, h.remembered⟩

variable {store : Store} {options : SynthesisOptions} {id : DeclId} {synthesis : OverrideSynthesis}
  {w : Workspace}

/-- A member that a class does not declare and that stands for others looks as the first of them
that no other one reached when the result was computed. It validly overrides all of them if and only
if that member, as the class sees it, validly overrides the others. -/
theorem fits_iff_unreached (sound : store.Sound) (eager : store.Eager) (inScope : store.Scoped)
    (reflexive : options.relation.Reflexive)
    (ok : effectiveSynthesis id (.initial store options) = .ok synthesis w) {s : EffectiveMember}
    (hs : s ∈ synthesis.set.members) (synthesized : s.origin ≠ .declared)
    (stands : synthesis.set.overriddenBy s.id ≠ []) :
    ∃ u source, (Workspace.initial store options).Later u ∧ u.Later w ∧ u.result? id = none ∧
      (u.effective.lookup u.store).unreached? (synthesis.set.overriddenBy s.id) = some source ∧
      w.store.signature? s.id = w.seen? id source ∧
      ((∀ other ∈ synthesis.set.overriddenBy s.id,
        w.Fits (w.store.signature? s.id) (w.seen? id other)) ↔
        ∀ other ∈ synthesis.set.overriddenBy s.id, other ≠ source →
          w.Fits (w.seen? id source) (w.seen? id other)) := by
  have fresh := Workspace.fresh_initial sound options
  obtain ⟨log, history, -, -, answer⟩ :=
    exists_history fresh (.start : History False _ _ _) (gives_ok_iff.2 ok)
  obtain ⟨c, hc, rfl, rfl⟩ := answer synthesis rfl
  have facts := history.facts fresh
  have still := history.still fresh eager.complete
  obtain ⟨step, later⟩ := facts.finished c hc
  obtain ⟨-, _, before, follows, -⟩ := facts.follows c hc
  have unknown : c.before.result? c.owner = none := by
    obtain ⟨data, ⟨declaration, stored, hd⟩, supertypes⟩ := follows.isClass
    have new := follows.new
    rw [Computation.key, ← supertypes] at new
    simp [Workspace.result?, stored, hd, new]
  obtain ⟨source, signature, first, looks, seen⟩ :=
    facts.exists_unreached fresh still inScope hc hs synthesized stands
  have earlier := (before.facts fresh).later
  obtain ⟨grows, grows'⟩ := still.grows sound.toWellFormed earlier.store (step.trans later).store
  refine ⟨c.before, source, earlier.later grows, (step.trans later).later grows', unknown, first,
    looks.trans seen.symm, ?_⟩
  rw [looks, seen]
  constructor
  · exact fun fits other ho _ => fits other ho
  · intro fits other ho
    by_cases same : other = source
    · rw [same, seen]
      have kept : w.effective.options = options := facts.later.options
      exact w.fits_self (kept ▸ reflexive) signature
    · exact fits other ho same

/-- A store of declarations whose types mention no type parameters is in scope. -/
theorem Store.scoped_receive_empty {next : DeclId} {declarations : List Declaration}
    (closed : ∀ declaration ∈ declarations,
      (∀ type ∈ declaration.signatureTypes, type.parameters = []) ∧
      ∀ data ∈ declaration.class?, ∀ supertype ∈ data.supertypes, supertype.parameters = []) :
    (Store.empty.receive next declarations).Scoped := by
  refine ⟨fun stored _ => ⟨fun type ht ref hr => ?_, fun type ht ref hr => ?_⟩,
    fun stored type ht ref hr => ?_⟩
  · have none := (closed _ (Store.mem_of_get?_receive_empty stored).1).1 type ht
    simp [none] at hr
  · have none := (closed _ (Store.mem_of_get?_receive_empty stored).1).1 type ht
    simp [none] at hr
  · obtain ⟨declaration, stored, hc⟩ := stored
    have none := (closed _ (Store.mem_of_get?_receive_empty stored).1).2 _ hc type ht
    simp [none] at hr

/-- Two classes narrow the result of a function of their common supertype, the first one to integers
and null and the second one to integers, and a third class extends both. -/
def narrowed : List Declaration :=
  [.plainClass ⟨1⟩ "Base" [] [⟨5⟩], .plainClass ⟨2⟩ "A" ["Base"] [⟨6⟩],
    .plainClass ⟨3⟩ "B" ["Base"] [⟨7⟩], .plainClass ⟨4⟩ "C" ["A", "B"] [],
    .plainFunction ⟨5⟩ ⟨1⟩ .nullableAny, .plainFunction ⟨6⟩ ⟨2⟩ (Ty.ofClass .int).makeNullable,
    .plainFunction ⟨7⟩ ⟨3⟩ (.ofClass .int)]

/-- The fake override in the third class looks as the function of the first one. -/
theorem fits_iff_unreached_narrowed :
    let store := Store.empty.receive ⟨8⟩ narrowed
    ∃ synthesis w, effectiveSynthesis ⟨4⟩ (.initial store {}) = .ok synthesis w ∧
      ∃ s ∈ synthesis.set.members, s.origin ≠ .declared ∧ synthesis.set.overriddenBy s.id ≠ [] ∧
      ∃ u source, (Workspace.initial store {}).Later u ∧ u.Later w ∧ u.result? ⟨4⟩ = none ∧
        (u.effective.lookup u.store).unreached? (synthesis.set.overriddenBy s.id) = some source ∧
        w.store.signature? s.id = w.seen? ⟨4⟩ source ∧
        ((∀ other ∈ synthesis.set.overriddenBy s.id,
            w.Fits (w.store.signature? s.id) (w.seen? ⟨4⟩ other)) ↔
          ∀ other ∈ synthesis.set.overriddenBy s.id, other ≠ source →
            w.Fits (w.seen? ⟨4⟩ source) (w.seen? ⟨4⟩ other)) := by
  intro store
  have computed : (match effectiveSynthesis ⟨4⟩ (.initial store {}) with
      | .ok synthesis _ => synthesis.set.members.any fun s =>
          s.origin ≠ .declared ∧ synthesis.set.overriddenBy s.id ≠ []
      | .error _ _ => false) = true := by decide +kernel
  cases ok : effectiveSynthesis ⟨4⟩ (.initial store {}) with
  | error e w => simp [ok] at computed
  | ok synthesis w =>
    rw [ok] at computed
    obtain ⟨s, hs, found⟩ := List.any_eq_true.1 computed
    obtain ⟨synthesized, stands⟩ := of_decide_eq_true found
    exact ⟨synthesis, w, rfl, s, hs, synthesized, stands,
      fits_iff_unreached (Store.sound_receive_empty (by decide) (by decide) (by decide))
        (Store.eager_receive_empty (by decide)) (Store.scoped_receive_empty (by decide))
        (RelationKind.reflexive default) ok hs
        synthesized stands⟩

/-- It does not validly override the function of the second class, although no class has
conflicts. -/
theorem not_forall_fits :
    ¬∀ (store : Store) (options : SynthesisOptions) (id : DeclId) (synthesis : OverrideSynthesis)
      (w : Workspace), store.Sound → store.Eager → store.Scoped →
      effectiveSynthesis id (.initial store options) = .ok synthesis w →
      (∀ h result, Relation.ReflTransGen store.Parent id h → w.result? h = some result →
        result.conflicts = []) →
      ∀ s ∈ synthesis.set.members, s.origin ≠ .declared →
        ∀ other ∈ synthesis.set.overriddenBy s.id,
          w.Fits (w.store.signature? s.id) (w.seen? id other) := by
  intro claim
  have computed :
    (match effectiveSynthesis ⟨4⟩ (.initial (Store.empty.receive ⟨8⟩ narrowed) {}) with
      | .ok synthesis w =>
        (w.effective.cache.entries.all fun entry => entry.2.conflicts.isEmpty) &&
        synthesis.set.members.any fun s => s.origin ≠ .declared ∧
          (synthesis.set.overriddenBy s.id).any fun other =>
            ¬w.Fits (w.store.signature? s.id) (w.seen? ⟨4⟩ other)
      | .error _ _ => false) = true := by decide +kernel
  cases ok : effectiveSynthesis ⟨4⟩ (.initial (Store.empty.receive ⟨8⟩ narrowed) {}) with
  | error e w => simp [ok] at computed
  | ok synthesis w =>
    rw [ok] at computed
    obtain ⟨clean, unfit⟩ := Bool.and_eq_true_iff.1 computed
    obtain ⟨s, hs, found⟩ := List.any_eq_true.1 unfit
    obtain ⟨synthesized, found⟩ := of_decide_eq_true found
    obtain ⟨other, ho, unfit⟩ := List.any_eq_true.1 found
    refine of_decide_eq_true unfit
      (claim _ {} ⟨4⟩ synthesis w ?_ ?_ ?_ ok (fun h result _ kept => ?_) s hs synthesized other ho)
    · exact Store.sound_receive_empty (by decide) (by decide) (by decide)
    · exact Store.eager_receive_empty (by decide)
    · exact Store.scoped_receive_empty (by decide)
    · obtain ⟨key, entry⟩ := Workspace.mem_entries_of_result? kept
      exact List.isEmpty_iff.1 (List.all_eq_true.1 clean _ entry)

end ClassSymbols
