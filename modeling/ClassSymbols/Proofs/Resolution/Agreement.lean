import ClassSymbols.Proofs.Overrides.RenamedComparisons
import ClassSymbols.Proofs.Overrides.RenamedInheritance
import ClassSymbols.Proofs.Resolution.Hierarchy
import ClassSymbols.Proofs.Resolution.Matching
import ClassSymbols.Proofs.Resolution.Mentions

/-!
# Runs that agree

Two runs may ask for different classes in a different order. If both find paired classes for the
supertypes of paired classes, then they compute the same results for these, up to the ids.

## Main definitions

* `Aligned` — two runs after which paired declarations are the same.
* `Comparison` — two such runs that find paired classes.
* `Computation.Renames` — whether a result is another one after a renaming.
* `Joint` — the computations of a pair of classes in two runs that agreed before.

## Main statements

* `Joint.renames` — one step of the resolutions.
* `Comparison.renames` — the results of paired classes agree.
-/

namespace ClassSymbols

open Relation

/-- Two runs after which paired declarations are the same up to a renaming. -/
structure Aligned (R : DeclId → DeclId → Prop) (origin origin' : Workspace)
    (log log' : List Computation) (w w' : Workspace) (f : DeclId → DeclId) : Prop where
  run : Run origin log w
  run' : Run origin' log' w'
  options : w'.effective.options = w.effective.options
  injective : Function.Injective f
  fixed : f .invalid = .invalid
  takes : ∀ {x y}, Matched R log log' x y → f x = y
  twin : ∀ {x y}, R x y → Option.Rel (Declaration.Twin f) (w.store.get? x) (w'.store.get? y)
  listed : ∀ {a b xs ys}, R a b → w.store.members? a = some xs → w'.store.members? b = some ys →
    List.Forall₂ R xs ys

/-- Two such runs in which results of paired classes, from some classes on upwards, were computed
from those of paired classes. Of declared members that no result of a direct supertype speaks of,
stored declarations do not speak either. If the comparison of result types reads the store, what may
be asked for then is found alike. -/
structure Comparison (R : DeclId → DeclId → Prop) (Above : DeclId → Prop)
    (Asked : DeclId → ClassId → Prop) (origin origin' : Workspace) (log log' : List Computation)
    (w w' : Workspace) (f : DeclId → DeclId) : Prop extends
    Aligned R origin origin' log log' w w' f where
  upward : ∀ {a b}, Above a → Offers log a b → Above b
  found : ∀ {c c'}, c ∈ log → c' ∈ log' → Above c.owner → R c.owner c'.owner →
    List.Forall₂ (fun m m' : SupertypeMembers =>
      m'.supertype = m.supertype.rename f ∧ R m.owner m'.owner)
      c.members c'.members
  silent : ∀ {b c c'}, c ∈ log → c' ∈ log' → Above b → Offers log b c.owner → R c.owner c'.owner →
    ∀ x ∈ c.declared,
    c.synthesis.set.overridden.get? x = none → w.store.overridden x = [] ∧
      w'.store.overridden (f x) = []
  natural : w.effective.options.relation.Natural
  grasps : w.effective.options.relation.ReadsStore → ∀ {a}, Above a → Grasps log w (Asked a) a
  finds : w.effective.options.relation.ReadsStore → ∀ {c c'}, c ∈ log → c' ∈ log' → Above c.owner →
    R c.owner c'.owner → FindsTwins f c.before.store c'.before.store (Asked c.owner)

/-- Whether a result is another one after a renaming. -/
structure Computation.Renames (f : DeclId → DeclId) (c renamed : Computation) : Prop where
  set : c.synthesis.set.Renames f renamed.synthesis.set
  conflicts : renamed.synthesis.conflicts = c.synthesis.conflicts.map (Conflict.rename f)
  pending : renamed.synthesis.pending = c.synthesis.pending.map (Declaration.rename f)

/-- Declarations that are renamed in larger stores are so in smaller ones, if both are stored
there. -/
theorem Store.Extends.twin {f : DeclId → DeclId} {s s' t t' : Store} (hs : s.Extends s')
    (ht : t.Extends t') {x y : DeclId} (stored : ∃ declaration, s.get? x = some declaration)
    (stored' : ∃ declaration, t.get? y = some declaration)
    (twins : Option.Rel (Declaration.Twin f) (s'.get? x) (t'.get? y)) :
    Option.Rel (Declaration.Twin f) (s.get? x) (t.get? y) := by
  obtain ⟨declaration, stored⟩ := stored
  obtain ⟨declaration', stored'⟩ := stored'
  obtain ⟨later, kept, same⟩ := hs.kept stored
  obtain ⟨later', kept', same'⟩ := ht.kept stored'
  rw [kept, kept'] at twins
  rw [stored, stored']
  exact .some ((Option.rel_some_some.1 twins).congr same.symm same'.symm)

/-- What stored declarations say about overriding stays. -/
theorem Store.Extends.overridden_eq {s s' : Store} (h : s.Extends s') {x : DeclId}
    (stored : ∃ declaration, s.get? x = some declaration) : s'.overridden x = s.overridden x := by
  obtain ⟨declaration, stored⟩ := stored
  obtain ⟨later, kept, same⟩ := h.kept stored
  have silent := Declaration.congr_unread Declaration.overridden_unread same
  simp [Store.overridden, stored, kept, silent]

namespace Aligned

variable {R : DeclId → DeclId → Prop} {origin origin' w w' : Workspace}
  {log log' : List Computation} {f : DeclId → DeclId} (h : Aligned R origin origin' log log' w w' f)
include h

/-- What is paired with a class is one, with the renamed supertypes. -/
theorem exists_isClass {a a' : DeclId} (pair : R a a') {data : ClassData}
    (isClass : w.store.IsClass a data) :
    ∃ data', w'.store.IsClass a' data' ∧ data'.supertypes = data.supertypes.map (Ty.rename f) := by
  obtain ⟨declaration, stored, hc⟩ := isClass
  have twin := h.twin pair
  rw [stored] at twin
  obtain ⟨declaration', stored', twin⟩ := exists_of_rel_some twin
  obtain ⟨data', hc', same⟩ := twin.class?_eq hc
  exact ⟨data', ⟨declaration', stored', hc'⟩, (congrArg ClassData.supertypes same :)⟩

theorem supertypes_eq {c c' : Computation} (hc : c ∈ log) (hc' : c' ∈ log')
    (pair : R c.owner c'.owner) :
    c'.supertypes = c.supertypes.map (Ty.rename f) := by
  obtain ⟨data, isClass, e⟩ := h.run.facts.exists_isClass hc
  obtain ⟨data', isClass', e'⟩ := h.exists_isClass pair isClass
  rw [← h.run'.facts.isClass hc' isClass', e', e]

end Aligned

namespace Comparison

variable {R : DeclId → DeclId → Prop} {Above : DeclId → Prop} {Asked : DeclId → ClassId → Prop}
  {origin origin' w w' : Workspace} {log log' : List Computation} {f : DeclId → DeclId}
  (h : Comparison R Above Asked origin origin' log log' w w' f)
include h

theorem above_of_offers {a b : DeclId} (above : Above a) (path : ReflTransGen (Offers log) a b) :
    Above b := by
  induction path with
  | refl => exact above
  | tail _ offers ih => exact h.upward ih offers

section Pair

variable {c c' : Computation} (hc : c ∈ log) (hc' : c' ∈ log') (pair : R c.owner c'.owner)
include hc hc' pair

theorem declared_related : List.Forall₂ R c.declared c'.declared :=
  h.listed pair (h.run.facts.listed hc) (h.run'.facts.listed hc')

theorem declared_eq : c'.declared = c.declared.map f := by
  rw [← List.forall₂_eq_eq_eq, List.forall₂_map_right_iff]
  exact (h.declared_related hc hc' pair).flip.imp fun _ _ related => (h.takes (.pair related)).symm

theorem twin_of_declared {x : DeclId} (hx : x ∈ c.declared) :
    Option.Rel (Declaration.Twin f) (w.store.get? x) (w'.store.get? (f x)) := by
  obtain ⟨y, -, related⟩ := exists_mem_of_forall₂_left (h.declared_related hc hc' pair) hx
  exact h.takes (.pair related) ▸ h.twin related

theorem has_of_renames (renames : c.Renames f c') {x : DeclId} (has : c.Has x) : c'.Has (f x) := by
  rcases has with hd | ⟨fake, hf, rfl⟩
  · refine .inl ?_
    rw [h.declared_eq hc hc' pair]
    exact List.mem_map_of_mem hd
  · refine .inr ⟨fake.rename f, ?_, rfl⟩
    rw [renames.pending]
    exact List.mem_map_of_mem hf

/-- The members of results that agree are renamed declarations. -/
theorem twin_of_renames (renames : c.Renames f c') {x : DeclId} (has : c.Has x) :
    Option.Rel (Declaration.Twin f) (w.store.get? x) (w'.store.get? (f x)) := by
  rcases has with hd | ⟨fake, hf, rfl⟩
  · exact h.twin_of_declared hc hc' pair hd
  · have hf' : fake.rename f ∈ c'.synthesis.pending := by
      rw [renames.pending]
      exact List.mem_map_of_mem hf
    have stored : w'.store.get? (f fake.id) = some (fake.rename f) :=
      h.run'.facts.get?_of_mem_pending hc' hf'
    rw [h.run.facts.get?_of_mem_pending hc hf, stored]
    exact .some (Declaration.twin_of_unread fake.unread_rename)

end Pair

/-- What a result was computed from, directly or not, is paired with something in the other run. -/
theorem exists_paired {before' : List Computation} {v' : Workspace}
    (facts' : History.Facts True origin' before' v') (inside' : before' ⊆ log') {a b : DeclId}
    (above : Above a) (path : ReflTransGen (Offers log) a b)
    (start : ∃ d' ∈ before', R a d'.owner) : ∃ d' ∈ before', R b d'.owner := by
  induction path with
  | refl => exact start
  | tail path offers ih =>
    obtain ⟨d', hd', pair⟩ := ih
    obtain ⟨d, hd, rfl, m, hm, rfl⟩ := offers
    have above := h.above_of_offers above path
    obtain ⟨m', hm', -, pair'⟩ :=
      exists_mem_of_forall₂_left (h.found hd (inside' hd') above pair) hm
    obtain ⟨e', he', owner, -, -⟩ := facts'.exists_offered hd' h.run'.fresh hm'
    exact ⟨e', he', owner ▸ pair'⟩

end Comparison

/-! ## One step -/

/-- The computations of a pair of classes in two runs, before which the results of paired classes
agreed. -/
structure Joint (R : DeclId → DeclId → Prop) (Above : DeclId → Prop)
    (Asked : DeclId → ClassId → Prop) (origin origin' : Workspace) (log log' : List Computation)
    (w w' : Workspace) (f : DeclId → DeclId) (before before' : List Computation)
    (c c' : Computation) : Prop where
  comparison : Comparison R Above Asked origin origin' log log' w w' f
  history : History True origin before c.before
  history' : History True origin' before' c'.before
  follows : c.Follows origin before
  follows' : c'.Follows origin' before'
  inside : c :: before ⊆ log
  inside' : c' :: before' ⊆ log'
  above : Above c.owner
  pair : R c.owner c'.owner
  agreed : ∀ d ∈ before, Above d.owner → ∀ d' ∈ log', R d.owner d'.owner → d.Renames f d'

/-- Whether a member has a home in a pair of classes, the first of which is a direct supertype. -/
def Met (R : DeclId → DeclId → Prop) (Above : DeclId → Prop) (log before before' : List Computation)
    (x : DeclId) :
    Prop :=
  ∃ d ∈ before, ∃ d' ∈ before', (∃ b, Above b ∧ Offers log b d.owner) ∧ R d.owner d'.owner ∧ d.Has x

namespace Joint

variable {R : DeclId → DeclId → Prop} {Above : DeclId → Prop} {Asked : DeclId → ClassId → Prop}
  {origin origin' w w' : Workspace} {log log' before before' : List Computation}
  {f : DeclId → DeclId} {c c' : Computation}
  (h : Joint R Above Asked origin origin' log log' w w' f before before' c c')
include h

theorem facts : History.Facts True origin before c.before := h.history.facts h.comparison.run.fresh

theorem facts' : History.Facts True origin' before' c'.before :=
  h.history'.facts h.comparison.run'.fresh

theorem mem : c ∈ log := h.inside List.mem_cons_self

theorem mem' : c' ∈ log' := h.inside' List.mem_cons_self

theorem subset : before ⊆ log := List.Subset.trans (List.subset_cons_self _ _) h.inside

theorem subset' : before' ⊆ log' := List.Subset.trans (List.subset_cons_self _ _) h.inside'

theorem later : c.before.LeadsTo w :=
  let ⟨step, later⟩ := h.comparison.run.facts.finished c h.mem
  step.trans later

theorem later' : c'.before.LeadsTo w' :=
  let ⟨step, later⟩ := h.comparison.run'.facts.finished c' h.mem'
  step.trans later

/-- What has a home above a direct supertype whose result is paired with one is met. -/
theorem met {d g : Computation} (used : ∃ b, Above b ∧ Offers log b d.owner)
    (start : ∃ d' ∈ before', R d.owner d'.owner) (hg : g ∈ before)
    (path : ReflTransGen (Offers before) d.owner g.owner) {x : DeclId} (has : g.Has x) :
    Met R Above log before before' x := by
  have path := ReflTransGen.mono (fun _ _ => Offers.mono h.subset) _ _ path
  obtain ⟨b, hb, offers⟩ := used
  have above := h.comparison.upward hb offers
  obtain ⟨g', hg', pair⟩ := h.comparison.exists_paired h.facts' h.subset' above path start
  refine ⟨g, hg, g', hg', ?_, pair, has⟩
  rcases path.cases_tail with same | ⟨e, path, offers'⟩
  · exact ⟨b, hb, same ▸ offers⟩
  · exact ⟨e, h.comparison.above_of_offers above path, offers'⟩

/-- What the supertypes offer agrees. -/
theorem supertypes : List.Forall₂ (SupertypeMembers.Renames f) c.members c'.members := by
  have related := h.comparison.found h.mem h.mem' h.above h.pair
  have listed := (List.forall₂_and_left _ _).2 ⟨fun _ hm => hm, (List.forall₂_and_left _ _).2
    ⟨fun _ hm => hm, related.flip⟩ |>.flip⟩
  refine listed.imp ?_
  rintro m m' ⟨hm, hm', supertype, pair⟩
  obtain ⟨d, hd, owner, offered⟩ := h.follows.offered m hm
  obtain ⟨d', hd', owner', offered'⟩ := h.follows'.offered m' hm'
  have above := h.comparison.upward h.above ⟨c, h.mem, rfl, m, hm, owner.symm⟩
  rw [← owner, ← owner'] at pair
  have renames := (h.agreed d hd above d' (h.subset' hd') pair).set
  refine ⟨supertype, ?_, ?_⟩
  · rw [← owner, ← owner']
    exact (h.comparison.takes (.pair pair)).symm
  · rw [← offered, ← offered', renames.memberIds]

/-- What is offered has a home above the class. -/
theorem exists_home_of_offered {m : SupertypeMembers} (hm : m ∈ c.members) {x : DeclId}
    (hx : x ∈ m.members) :
    ∃ d ∈ before, Offers log c.owner d.owner ∧ d.owner = m.owner ∧
      ∃ g ∈ before, g.Has x ∧ ReflTransGen (Offers before) d.owner g.owner := by
  obtain ⟨d, hd, owner, offered⟩ := h.follows.offered m hm
  obtain ⟨g, hg, has, path⟩ := h.history.exists_home h.comparison.run.fresh d hd x (offered ▸ hx)
  exact ⟨d, hd, ⟨c, h.mem, rfl, m, hm, owner.symm⟩, owner, g, hg, has, path⟩

theorem met_of_offered {m : SupertypeMembers} (hm : m ∈ c.members) {x : DeclId}
    (hx : x ∈ m.members) :
    Met R Above log before before' x := by
  obtain ⟨d, hd, offers, owner, g, hg, has, path⟩ := h.exists_home_of_offered hm hx
  obtain ⟨m', hm', -, pair⟩ :=
    exists_mem_of_forall₂_left (h.comparison.found h.mem h.mem' h.above h.pair) hm
  obtain ⟨d', hd', owner', -⟩ := h.follows'.offered m' hm'
  exact h.met ⟨c.owner, h.above, offers⟩ ⟨d', hd', by rwa [owner, owner']⟩ hg path has

/-! ### Overridden members -/

section Pair

variable {d d' : Computation} (hd : d ∈ before) (hd' : d' ∈ before') {b : DeclId} (hb : Above b)
  (offers : Offers log b d.owner) (pair : R d.owner d'.owner) {x : DeclId} (has : d.Has x)
include hd hd' hb offers pair has

/-- What the first workspace knows of a member that is met is what its home says. -/
theorem successors_of_home :
    (c.before.effective.lookup c.before.store).successors x = d.synthesis.set.overriddenBy x := by
  refine h.facts.successors_eq h.comparison.run.fresh hd has fun listed unknown => ?_
  have silent :=
    (h.comparison.silent (h.subset hd) (h.subset' hd') hb offers pair x listed unknown).1
  rwa [← h.later.store.toExtends.overridden_eq (h.facts.exists_stored hd has)]

/-- So is what the other workspace knows, if the results agree. -/
theorem successors_of_home' (renames : d.Renames f d') :
    (c'.before.effective.lookup c'.before.store).successors (f x) =
      d'.synthesis.set.overriddenBy (f x) := by
  have has' := h.comparison.has_of_renames (h.subset hd) (h.subset' hd') pair renames has
  refine h.facts'.successors_eq h.comparison.run'.fresh hd' has' fun _ unknown => ?_
  rw [renames.set.get?_overridden h.comparison.injective, Option.map_eq_none_iff] at unknown
  rcases has with listed | ⟨fake, hf, rfl⟩
  · have silent :=
      (h.comparison.silent (h.subset hd) (h.subset' hd') hb offers pair x listed unknown).2
    rwa [← h.later'.store.toExtends.overridden_eq (h.facts'.exists_stored hd' has')]
  · obtain ⟨sound, _, _, follows, -⟩ := h.facts.follows d hd
    exact absurd (by simp [OverrideSet.overriddenBy, unknown])
      (follows.overriddenBy_ne_nil sound hf)

end Pair

/-- What the workspaces know of members that are met agrees. -/
theorem successors_eq {x : DeclId} (met : Met R Above log before before' x) :
    (c'.before.effective.lookup c'.before.store).successors (f x) =
      ((c.before.effective.lookup c.before.store).successors x).map f := by
  obtain ⟨d, hd, d', hd', ⟨b, hb, offers⟩, pair, has⟩ := met
  have renames := h.agreed d hd (h.comparison.upward hb offers) d' (h.subset' hd') pair
  rw [h.successors_of_home hd hd' hb offers pair has,
    h.successors_of_home' hd hd' hb offers pair has renames, OverrideSet.overriddenBy,
    OverrideSet.overriddenBy, renames.set.get?_overridden h.comparison.injective]
  cases d.synthesis.set.overridden.get? x <;> rfl

theorem met_successors {x : DeclId} (met : Met R Above log before before' x) :
    ∀ y ∈ (c.before.effective.lookup c.before.store).successors x,
      Met R Above log before before' y := by
  obtain ⟨d, hd, d', hd', ⟨b, hb, offers⟩, pair, has⟩ := met
  rw [h.successors_of_home hd hd' hb offers pair has]
  intro y hy
  obtain ⟨sound, _, _, follows, -⟩ := h.facts.follows d hd
  obtain ⟨m, hm, offered⟩ := (follows.sources sound).2 x y hy
  obtain ⟨g, hg, has', path⟩ :=
    h.history.exists_home_of_offered h.comparison.run.fresh hd hm offered
  exact h.met ⟨b, hb, offers⟩ ⟨d', hd', pair⟩ hg path has'

/-- What members that are met reach agrees. -/
theorem reaches_iff {x : DeclId} (met : Met R Above log before before' x) (y : DeclId) :
    (c'.before.effective.lookup c'.before.store).Reaches (f x) y ↔
      ∃ z, (c.before.effective.lookup c.before.store).Reaches x z ∧ f z = y :=
  FiniteGraph.reaches_map_iff (S := Met R Above log before before')
    (fun met y => by rw [h.successors_eq met, List.mem_map]) h.met_successors met

/-! ### What is read -/

/-- Members that are met are renamed declarations when the results are computed. -/
theorem twin {x : DeclId} (met : Met R Above log before before' x) :
    Option.Rel (Declaration.Twin f) (c.before.store.get? x) (c'.before.store.get? (f x)) := by
  obtain ⟨d, hd, d', hd', ⟨b, hb, offers⟩, pair, has⟩ := met
  have renames := h.agreed d hd (h.comparison.upward hb offers) d' (h.subset' hd') pair
  have has' := h.comparison.has_of_renames (h.subset hd) (h.subset' hd') pair renames has
  refine h.later.store.toExtends.twin h.later'.store.toExtends (h.facts.exists_stored hd has)
    (h.facts'.exists_stored hd' has') ?_
  exact h.comparison.twin_of_renames (h.subset hd) (h.subset' hd') pair renames has

variable {declarations declarations' : List Declaration} {inherited inherited' : List Inherited}
  (reads : (c.input declarations).Reads c.declared c.members inherited)
  (reads' : (c'.input declarations').Reads c'.declared c'.members inherited')
include reads

theorem met_of_inherited {m : Inherited} (hm : m ∈ inherited) :
    Met R Above log before before' m.id := by
  obtain ⟨offer, ho, listed⟩ := reads.listed hm
  exact h.met_of_offered ho listed

/-- Checks of declared members against inherited ones compare types alike. -/
theorem compares {name : String} {d : DeclaredMember} {m : Inherited}
    (hd : d ∈ (c.input declarations).declaredNamed name) (hm : m ∈ inherited) :
    w.effective.options.relation.holds c'.before.store (d.signature.returnType.rename f)
        (m.signature.returnType.rename f) =
      w.effective.options.relation.holds c.before.store d.signature.returnType
        m.signature.returnType := by
  have run := h.comparison.run
  refine h.comparison.natural.holds_rename h.comparison.injective fun looks =>
    ⟨h.comparison.finds looks h.mem h.mem' h.above h.pair, ?_, ?_⟩
  · have grasps := h.comparison.grasps looks h.above
    obtain ⟨listed, signed, -⟩ := reads.mem_declaredNamed_iff.1 hd
    obtain ⟨declaration, stored, signed⟩ := Option.bind_eq_some_iff.1 signed
    obtain ⟨type, ht, e⟩ := Signature.returnType_eq signed
    have plain :=
      Declaration.class?_eq_none_of_isCallable (Declaration.isCallable_of_signature signed)
    have within :=
      grasps.results h.mem .refl listed (h.later.store.get?_of_class?_eq_none stored plain) ht
    rw [e]
    exact (within.substitute .identity).anonymize _
  · have grasps := h.comparison.grasps looks h.above
    have seen := reads.mem_inherited_iff.1 hm
    obtain ⟨stored, -, -, signed⟩ := Store.inheritedAs?_eq_some_iff.1 seen
    obtain ⟨type, ht, e⟩ := Signature.returnType_eq signed
    obtain ⟨offer, ho, listed⟩ := reads.listed hm
    obtain ⟨_, -, offers, -, g, hg, has, path⟩ := h.exists_home_of_offered ho listed
    have plain := Declaration.class?_eq_none_of_isCallable (reads.isCallable hm)
    have within := grasps.within_resultType run.fresh run.history (h.subset hg)
      (.head offers (ReflTransGen.mono (fun _ _ => Offers.mono h.subset) _ _ path)) has
      (h.later.store.get?_of_class?_eq_none stored plain) ht
    rw [e]
    exact (within.substitute (grasps.within_substitution h.mem .refl seen)).anonymize _

include reads'

theorem declarations_related : List.Forall₂ (Declaration.Twin f) declarations declarations' := by
  have resolved' := reads'.resolved
  rw [h.comparison.declared_eq h.mem h.mem' h.pair] at resolved'
  refine declared_renames reads.resolved resolved' fun x hx => ?_
  obtain ⟨declaration, -, ok⟩ := exists_mem_of_forall₂_left (mapM_eq_ok_iff.1 reads.resolved) hx
  obtain ⟨declaration', -, ok'⟩ :=
    exists_mem_of_forall₂_left (mapM_eq_ok_iff.1 resolved') (List.mem_map_of_mem hx)
  refine h.later.store.toExtends.twin h.later'.store.toExtends
    ⟨declaration, Store.resolve_eq_ok_iff.1 ok⟩
    ⟨declaration', Store.resolve_eq_ok_iff.1 ok'⟩ ?_
  exact h.comparison.twin_of_declared h.mem h.mem' h.pair hx

theorem inherited_related : List.Forall₂ (Inherited.Renames f) inherited inherited' :=
  inheritedMembers_renames h.comparison.injective h.comparison.fixed h.supertypes
    (fun _ hm _ hx => h.twin (h.met_of_offered hm hx)) reads.offered reads'.offered

/-- The inputs of the two runs agree. -/
theorem input_renames : (c.input declarations).Renames f (c'.input declarations') inherited where
  injective := h.comparison.injective
  fixed := h.comparison.fixed
  options := h.later'.options.symm.trans (h.comparison.options.trans h.later.options)
  owner := (h.comparison.takes (.pair h.pair)).symm
  declared := (h.declarations_related reads reads').imp fun d d' twin =>
    ⟨twin.id, twin.name, twin.signature h.comparison.injective h.comparison.fixed⟩
  compares hd hm := by
    have options : (c.input declarations).options = w.effective.options := h.later.options.symm
    rw [options]
    exact h.compares reads hd hm
  settles settled := by
    refine .of_reaches h.comparison.injective fun _ ha y => ?_
    obtain ⟨m, hm, rfl⟩ := List.mem_map.1 ha
    obtain ⟨_, settles⟩ := SynthesisInput.mem_stamped_iff.1 settled
    have inside := SynthesisInput.Settles.mem_inherited settles hm
    exact h.reaches_iff (h.met_of_inherited reads inside) y
  callable _ hm := reads.isCallable hm

omit reads reads' in
/-- If results agreed before, the results of a pair of classes agree. -/
theorem renames : c.Renames f c' := by
  obtain ⟨declarations, inherited, reads, result, -⟩ := h.follows.exists_run h.facts.sound
  obtain ⟨declarations', inherited', reads', result', -⟩ := h.follows'.exists_run h.facts'.sound
  have fresh (i : Nat) (fake fake' : Declaration)
      (at_i : ((c.input declarations).run inherited).pending[i]? = some fake)
      (at_i' : ((c'.input declarations').run inherited').pending[i]? = some fake') :
        fake'.id = f fake.id := by
    have at_c : c.synthesis.pending[i]? = some fake := by rw [result]; exact at_i
    have at_c' : c'.synthesis.pending[i]? = some fake' := by rw [result']; exact at_i'
    exact (h.comparison.takes (.fake h.mem h.mem' h.pair at_c at_c')).symm
  obtain ⟨set, conflicts, pending⟩ :=
    (h.input_renames reads reads').run (h.inherited_related reads reads') fresh
  constructor <;> rw [result, result'] <;> assumption

end Joint

/-! ## All steps -/

namespace Comparison

variable {R : DeclId → DeclId → Prop} {Above : DeclId → Prop} {Asked : DeclId → ClassId → Prop}
  {origin origin' w w' : Workspace} {log log' : List Computation} {f : DeclId → DeclId}
  (h : Comparison R Above Asked origin origin' log log' w w' f)
include h

/-- The results of paired classes agree. -/
theorem renames {before : List Computation} {v : Workspace} (history : History True origin before v)
    (inside : before ⊆ log) :
    ∀ c ∈ before, Above c.owner → ∀ c' ∈ log', R c.owner c'.owner → c.Renames f c' := by
  induction history with
  | start => simp
  | read _ _ ih => exact ih inside
  | load _ _ _ ih => exact ih inside
  | @compute before c earlier follows ih =>
    have agreed := ih (List.Subset.trans (List.subset_cons_self _ _) inside)
    rintro d (_ | ⟨_, hd⟩) above d' hd' pair
    · obtain ⟨-, before', earlier', follows', suffix⟩ := h.run'.facts.follows d' hd'
      exact Joint.renames ⟨h, earlier, earlier', follows, follows', inside, suffix.subset, above,
        pair, agreed⟩
    · exact agreed d hd above d' hd' pair

/-- The effective members of paired classes have the same signatures. -/
theorem signature?_eq {c c' : Computation} (hc : c ∈ log) (hc' : c' ∈ log') (above : Above c.owner)
    (pair : R c.owner c'.owner) {x : DeclId} (hx : x ∈ c.synthesis.set.memberIds) :
    w'.store.signature? (f x) = (w.store.signature? x).map (Signature.rename f) := by
  obtain ⟨g, hg, has, path⟩ := h.run.history.exists_home h.run.fresh c hc x hx
  obtain ⟨g', hg', pair'⟩ :=
    h.exists_paired h.run'.facts (List.Subset.refl _) above path ⟨c', hc', pair⟩
  have renames :=
    h.renames h.run.history (List.Subset.refl _) g hg (h.above_of_offers above path) g' hg' pair'
  have twin := h.twin_of_renames hg hg' pair' renames has
  unfold Store.signature?
  generalize w.store.get? x = a, w'.store.get? (f x) = b at twin
  cases twin with
  | none => rfl
  | some twin => exact twin.signature h.injective h.fixed

end Comparison

end ClassSymbols
