import ClassSymbols.Proofs.Ascent.QueryOrder
import ClassSymbols.Proofs.Ascent.Reliance
import ClassSymbols.Proofs.Ascent.Transplants

/-!
# An ascent alongside a history

Whoever climbs a hierarchy computes, of the classes that can be relied on, the results that a table
of results would have if these classes were asked for in that order. What the stored declarations of
their members say about overriding is then part of what the table knows, and the table knows of no
cycle.

## Main definitions

* `Alongside` — an ascent and a history with the same results for the classes that can be relied on.
* `Passed` — the members that such a class can inherit.

## Main statements

* `Alongside.traced_of_passed` — stored declarations trace the members that are passed on.
* `Alongside.prunes` — they say less about them than the table, and nothing else.
-/

namespace ClassSymbols

open Relation

/-- An ascent, on the way to the last one, and a history that has the results of those computed
classes that can be relied on in the end. -/
structure Alongside (store : Store) (options : SynthesisOptions) (last : Ascent)
    (done : List DeclId) (ascent : Ascent) (log : List Computation) (w : Workspace) : Prop
    extends Climbed store done ascent where
  history : History True (.initial store options) log w
  unread : store.Still w.store
  next : ascent.store.next = w.store.next
  later : ascent.LeadsTo last
  owners : ∀ id, id ∈ done ∧ last.Reliable id ↔ ∃ c ∈ log, c.owner = id
  results : ∀ c ∈ log, ascent.results.get? c.owner = some c.synthesis.handed
  stored : ∀ c ∈ log, c.synthesis.handed.pending = [] → ∀ fake ∈ c.synthesis.pending,
    ascent.store.get? fake.id = some fake
  traced : ∀ c ∈ log, c.synthesis.handed.pending = [] → ∀ fake ∈ c.synthesis.pending,
    last.Traced fake.id

def Passed (store : Store) (log : List Computation) (id x : DeclId) : Prop :=
  ∃ c ∈ log, TransGen store.Parent id c.owner ∧ c.Has x

namespace Alongside

variable {store : Store} {options : SynthesisOptions} {last ascent : Ascent}
  {done all : List DeclId} {log : List Computation} {w : Workspace}

/-- Before anything was computed. -/
theorem start (ground : store.Ground) (options : SynthesisOptions)
    (later : Ascent.LeadsTo { store } last) :
    Alongside store options last [] { store } [] (.initial store options) where
  toClimbed := .start ground.sound ground.eager
  history := .start
  unread := ⟨ground.eager.complete, fun isClass => ⟨_, isClass⟩⟩
  next := rfl
  later := later
  owners := by simp
  results := by simp
  stored := by simp
  traced := by simp

variable (h : Alongside store options last done ascent log w) (ground : store.Ground)
include h ground

theorem alternatives : Alternatives store options log log w w :=
  ⟨ground.sound, ground.indexed, ground.eager, ground.enclosed, ground.positive, h.history,
    h.history, h.unread, h.unread⟩

theorem facts : History.Facts True (.initial store options) log w :=
  (h.alternatives ground).run.facts

/-- The class of a supertype is found wherever it is found from the start. -/
theorem bind_findClass?_eq (supertype : Ty) :
    supertype.classId?.bind ascent.store.findClass? = supertype.classId?.bind store.findClass? ∧
      supertype.classId?.bind w.store.findClass? = supertype.classId?.bind store.findClass? := by
  cases supertype.classId? with
  | none => exact ⟨rfl, rfl⟩
  | some k =>
    exact ⟨h.findClass?_eq ground.sound k,
      (h.alternatives ground).findClass?_eq w (h.facts ground).later (.refl w) k⟩

theorem members?_eq {c : Computation} (hc : c ∈ log) : store.members? c.owner = some c.declared :=
  (h.alternatives ground).members?_eq ((h.facts ground).listed hc)

/-! ### What is alike -/

/-- What was there from the start is alike. -/
theorem alike_of_lt {x : DeclId} (below : x.number < store.next.number) :
    ascent.store.Alike w.store x :=
  ground.enclosed.twin ground.sound ground.eager (fun _ _ => rfl) h.evolves
    (h.alternatives ground).evolves
    below

theorem alike_of_listed {a x : DeclId} {members : List DeclId}
    (known : store.members? a = some members) (hx : x ∈ members) : ascent.store.Alike w.store x :=
  h.alike_of_lt ground (ground.sound.listed_allocated known x hx)

theorem isSome_of_listed {a x : DeclId} {members : List DeclId}
    (known : store.members? a = some members) (hx : x ∈ members) :
    (ascent.store.get? x).isSome := by
  obtain ⟨declaration, old⟩ := Option.isSome_iff_exists.1 (ground.registered a members known x hx)
  obtain ⟨later, kept, -⟩ := h.evolves.kept old
  exact Option.isSome_of_mem kept

theorem findsTwins : FindsTwins id ascent.store w.store fun _ => True where
  injective := Function.injective_id
  any := trivial
  found {k} _ := by
    have found' := (h.alternatives ground).findClass?_eq w (h.facts ground).later (.refl w) k
    rw [h.findClass?_eq ground.sound k, found']
    cases known : store.findClass? k with
    | none => exact .none
    | some a =>
      exact .some ⟨rfl, h.alike_of_lt ground ((h.alternatives ground).lt_next_of_found known)⟩
  closed _ _ _ _ _ _ _ := trivial

/-- The members of a class of which no fake override is left to be stored are alike. -/
theorem alike_of_has {c : Computation} (hc : c ∈ log) (settled : c.synthesis.handed.pending = [])
    {x : DeclId} (has : c.Has x) : ascent.store.Alike w.store x := by
  rcases has with listed | ⟨fake, hf, rfl⟩
  · exact h.alike_of_listed ground (h.members?_eq ground hc) listed
  · obtain ⟨sound, _, _, follows, -⟩ := (h.facts ground).follows c hc
    unfold Store.Alike
    rw [h.stored c hc settled fake hf, (h.facts ground).get?_of_mem_pending hc hf]
    exact .some (twin_id_of_isCallable (follows.isCallable_of_mem_pending sound hf).1)

theorem isSome_of_has {c : Computation} (hc : c ∈ log) (settled : c.synthesis.handed.pending = [])
    {x : DeclId} (has : c.Has x) : (ascent.store.get? x).isSome := by
  rcases has with listed | ⟨fake, hf, rfl⟩
  · exact h.isSome_of_listed ground (h.members?_eq ground hc) listed
  · exact Option.isSome_of_mem (h.stored c hc settled fake hf)

/-- Fake overrides that are stored stay stored. -/
theorem stored_of_leadsTo {further : Ascent} (onward : ascent.LeadsTo further) {c : Computation}
    (hc : c ∈ log) (settled : c.synthesis.handed.pending = []) {fake : Declaration}
    (hf : fake ∈ c.synthesis.pending) : further.store.get? fake.id = some fake := by
  obtain ⟨sound, _, _, follows, -⟩ := (h.facts ground).follows c hc
  exact onward.store.get?_of_class?_eq_none (h.stored c hc settled fake hf)
    ((ready_of_synthesizeWith sound.toWellFormed follows.run).made fake hf).1

/-- What stored declarations say of the recorded members of a class is what its result says. -/
theorem mem_overridden_iff (final : Climbed store all last) {c : Computation} (hc : c ∈ log)
    (settled : c.synthesis.handed.pending = []) {x : DeclId} (has : c.Has x)
    (recorded : last.Recorded x) (y : DeclId) :
    y ∈ last.store.overridden x ↔ y ∈ c.synthesis.set.overriddenBy x := by
  rcases has with listed | ⟨fake, hf, rfl⟩
  · have known := final.members?_iff.2 (h.members?_eq ground hc)
    have agrees := recorded _ _ _ known listed (h.later.results (h.results c hc)) y
    rwa [OverrideSynthesis.set_handed] at agrees
  · obtain ⟨sound, _, _, follows, -⟩ := (h.facts ground).follows c hc
    have made := (ready_of_synthesizeWith sound.toWellFormed follows.run).made fake hf
    simp only [Store.overridden, h.stored_of_leadsTo ground h.later hc settled hf, made.2.2.2]

/-! ### What is passed on -/

section Passed

variable (final : Climbed store all last) {id : DeclId} (reliable : last.Reliable id)

/-- What a class was computed from, directly or not, is above it. -/
theorem above_of_path {a b : DeclId} (path : ReflTransGen (Offers log) a b) :
    ReflTransGen store.Parent a b := by
  refine ReflTransGen.mono (fun _ _ offers => ?_) _ _ path
  exact (h.facts ground).parent_of_offers (h.alternatives ground).still
    (h.alternatives ground).fresh offers

/-- The effective members of a class above another class are passed on to the latter. -/
theorem passed_of_mem {c : Computation} (hc : c ∈ log) (above : TransGen store.Parent id c.owner)
    {x : DeclId} (hx : x ∈ c.synthesis.set.memberIds) : Passed store log id x := by
  obtain ⟨g, hg, has, path⟩ := h.history.exists_home (h.alternatives ground).fresh c hc x hx
  exact ⟨g, hg, above.trans_left (h.above_of_path ground path), has⟩

/-- So are the members that they override. -/
theorem exists_home_of_overridden {c : Computation} (hc : c ∈ log) {x y : DeclId}
    (overrides : y ∈ c.synthesis.set.overriddenBy x) :
    ∃ g ∈ log, g.Has y ∧ TransGen (Offers log) c.owner g.owner := by
  obtain ⟨sound, log₀, _, follows, suffix⟩ := (h.facts ground).follows c hc
  obtain ⟨m, hm, offered⟩ := (follows.sources sound).2 x y overrides
  obtain ⟨d, hd, owner, members⟩ := follows.offered m hm
  have hd := suffix.subset (List.mem_cons_of_mem _ hd)
  obtain ⟨g, hg, has, path⟩ :=
    h.history.exists_home (h.alternatives ground).fresh d hd y (members ▸ offered)
  exact ⟨g, hg, has, .head' ⟨c, hc, rfl, m, hm, owner.symm⟩ path⟩

include final reliable

/-- The results above a class that can be relied on have left nothing to be stored. -/
theorem settled_of_above {c : Computation} (hc : c ∈ log)
    (above : TransGen store.Parent id c.owner) :
    c.synthesis.handed.pending = [] := by
  rw [← final.parent_eq ground.sound] at above
  exact reliable.settled _ above _ (h.later.results (h.results c hc))

omit reliable in
theorem declaredAbove {c : Computation} (hc : c ∈ log) (above : TransGen store.Parent id c.owner)
    {x : DeclId} (listed : x ∈ c.declared) : last.DeclaredAbove id x := by
  refine ⟨c.owner, c.declared, ?_, final.members?_iff.2 (h.members?_eq ground hc), listed⟩
  rwa [final.parent_eq ground.sound]

theorem isSome_of_passed {x : DeclId} (passed : Passed store log id x) :
    (ascent.store.get? x).isSome := by
  obtain ⟨c, hc, above, has⟩ := passed
  exact h.isSome_of_has ground hc (h.settled_of_above ground final reliable hc above) has

theorem alike_of_passed {x : DeclId} (passed : Passed store log id x) :
    ascent.store.Alike w.store x := by
  obtain ⟨c, hc, above, has⟩ := passed
  exact h.alike_of_has ground hc (h.settled_of_above ground final reliable hc above) has

/-- What stored declarations say of a member that is passed on does not change. -/
theorem overridden_eq {x : DeclId} (passed : Passed store log id x) :
    ascent.store.overridden x = last.store.overridden x := by
  have stored := Option.isSome_iff_exists.1 (h.isSome_of_passed ground final reliable passed)
  exact (h.later.store.toExtends.overridden_eq stored).symm

/-- If all that is declared above a class is recorded then so is all that is passed on. -/
theorem restsOn_none (recorded : ∀ x, last.DeclaredAbove id x → last.Recorded x) {x : DeclId}
    (passed : Passed store log id x) :
    last.store.overriddenLookup.RestsOn last.Recorded x none := by
  have known {x : DeclId} (passed : Passed store log id x) : last.Recorded x := by
    obtain ⟨c, hc, above, listed | ⟨fake, hf, rfl⟩⟩ := passed
    · exact recorded x (h.declaredAbove ground final hc above listed)
    · exact final.recorded_of_le ground.sound ((h.alternatives ground).apart hc hf)
  intro y reached
  refine known ?_
  induction reached with
  | refl => exact passed
  | @head a b _ step _ ih =>
    refine ih ?_
    have own := known passed
    obtain ⟨c, hc, above, has⟩ := passed
    have settled := h.settled_of_above ground final reliable hc above
    obtain ⟨g, hg, has', path⟩ := h.exists_home_of_overridden ground hc
      ((h.mem_overridden_iff ground final hc settled has own b).1 step)
    exact ⟨g, hg, above.trans_left (h.above_of_path ground path.to_reflTransGen), has'⟩

/-- Stored declarations trace the members that are passed on. -/
theorem traced_of_passed {x : DeclId} (passed : Passed store log id x) : last.Traced x := by
  rcases reliable.grounded id .refl with recorded | enough
  · exact ⟨none, h.restsOn_none ground final reliable recorded passed⟩
  · obtain ⟨c, hc, above, listed | ⟨fake, hf, rfl⟩⟩ := passed
    · exact enough.traced x (h.declaredAbove ground final hc above listed)
    · exact h.traced c hc (h.settled_of_above ground final reliable hc above) fake hf

/-- If a result does not speak of a declared member then neither does its stored declaration. -/
theorem overridden_eq_nil {c : Computation} (hc : c ∈ log)
    (above : TransGen store.Parent id c.owner) {x : DeclId} (listed : x ∈ c.declared)
    (unknown : c.synthesis.set.overridden.get? x = none) :
    store.overridden x = [] := by
  have passed : Passed store log id x := ⟨c, hc, above, .inl listed⟩
  have silent : last.store.overridden x = [] := by
    obtain ⟨base, rests⟩ := h.traced_of_passed ground final reliable passed
    by_cases recorded : last.Recorded x
    · have settled := h.settled_of_above ground final reliable hc above
      refine List.eq_nil_iff_forall_not_mem.2 fun y hy => ?_
      have overrides := (h.mem_overridden_iff ground final hc settled (.inl listed) recorded y).1 hy
      simp [OverrideSet.overriddenBy, unknown] at overrides
    · exact (rests.eq_some_of_not_kept recorded).2
  have old := Option.isSome_iff_exists.1 (ground.registered _ _ (h.members?_eq ground hc) x listed)
  rw [← h.evolves.toExtends.overridden_eq old, h.overridden_eq ground final reliable passed, silent]

/-- What the table knows of a member is what the result of its class says. -/
theorem successors_eq {c : Computation} (hc : c ∈ log) (above : TransGen store.Parent id c.owner)
    {x : DeclId} (has : c.Has x) :
    (w.effective.lookup w.store).successors x = c.synthesis.set.overriddenBy x := by
  have fresh := (h.alternatives ground).fresh
  refine (h.facts ground).successors_eq fresh hc has fun listed unknown => ?_
  have below := ground.sound.listed_allocated (h.members?_eq ground hc) x listed
  rw [(h.alternatives ground).overridden_eq below]
  exact h.overridden_eq_nil ground final reliable hc above listed unknown

/-- What the table knows a member to override is of a class above. -/
theorem exists_home_of_successor {c : Computation} (hc : c ∈ log)
    (above : TransGen store.Parent id c.owner) {x y : DeclId} (has : c.Has x)
    (step : y ∈ (w.effective.lookup w.store).successors x) :
    ∃ g ∈ log, g.Has y ∧ TransGen store.Parent id g.owner ∧
      TransGen (Offers log) c.owner g.owner := by
  rw [h.successors_eq ground final reliable hc above has] at step
  obtain ⟨g, hg, has', path⟩ := h.exists_home_of_overridden ground hc step
  exact ⟨g, hg, has', above.trans_left (h.above_of_path ground path.to_reflTransGen), path⟩

theorem exists_home_of_leadsTo {c : Computation} (hc : c ∈ log)
    (above : TransGen store.Parent id c.owner) {x y : DeclId} (has : c.Has x)
    (walk : (w.effective.lookup w.store).LeadsTo x y) :
    ∃ g ∈ log, g.Has y ∧ TransGen store.Parent id g.owner ∧
      TransGen (Offers log) c.owner g.owner := by
  induction walk with
  | single step => exact h.exists_home_of_successor ground final reliable hc above has step
  | tail _ step ih =>
    obtain ⟨g, hg, has', above', path⟩ := ih
    obtain ⟨g', hg', has'', above'', path'⟩ :=
      h.exists_home_of_successor ground final reliable hg above' has' step
    exact ⟨g', hg', has'', above'', path.trans path'⟩

/-- Of the members that are passed on, stored declarations say less than the table, and nothing
else. The table knows of no cycle. -/
theorem prunes_last : last.store.overriddenLookup.Prunes (w.effective.lookup w.store) last.Recorded
    (Passed store log id) where
  closed := by
    rintro x ⟨c, hc, above, has⟩ y step
    obtain ⟨g, hg, has', above', -⟩ :=
      h.exists_home_of_successor ground final reliable hc above has step
    exact ⟨g, hg, above', has'⟩
  agrees := by
    rintro x ⟨c, hc, above, has⟩ recorded y
    have settled := h.settled_of_above ground final reliable hc above
    rw [h.successors_eq ground final reliable hc above has]
    exact h.mem_overridden_iff ground final hc settled has recorded y
  acyclic := by
    rintro x y ⟨c, hc, above, has⟩ forth back
    have fresh := (h.alternatives ground).fresh
    rcases FiniteGraph.reaches_iff_eq_or_leadsTo.1 forth with same | forth
    · exact same.symm
    rcases FiniteGraph.reaches_iff_eq_or_leadsTo.1 back with same | back
    · exact same
    obtain ⟨g, hg, has', -, path⟩ :=
      h.exists_home_of_leadsTo ground final reliable hc above has (forth.trans back)
    obtain rfl := (h.facts ground).eq_of_has fresh hc hg has has'
    exact absurd path (h.history.not_offers_self fresh c.owner)

theorem prunes : ascent.store.overriddenLookup.Prunes (w.effective.lookup w.store) last.Recorded
    (Passed store log id) where
  closed := (h.prunes_last ground final reliable).closed
  agrees passed recorded y := by
    rw [← (h.prunes_last ground final reliable).agrees passed recorded y]
    exact iff_of_eq (congrArg (y ∈ ·) (h.overridden_eq ground final reliable passed))
  acyclic := (h.prunes_last ground final reliable).acyclic

/-- Where stored declarations lead in the end, they lead already. -/
theorem successors_eq_of_reaches {x : DeclId} (passed : Passed store log id x) (y : DeclId)
    (reached : last.store.overriddenLookup.Reaches x y) :
    ascent.store.overriddenLookup.successors y = last.store.overriddenLookup.successors y := by
  have prunes := h.prunes_last ground final reliable
  obtain ⟨base, rests⟩ := h.traced_of_passed ground final reliable passed
  exact h.overridden_eq ground final reliable
    (prunes.closed_of_reaches passed (prunes.reaches_of_pruned passed rests reached))

theorem exists_restsOn {x : DeclId} (passed : Passed store log id x) :
    ∃ base, last.store.overriddenLookup.RestsOn last.Recorded x base ∧
      ascent.store.overriddenLookup.RestsOn last.Recorded x base := by
  obtain ⟨base, rests⟩ := h.traced_of_passed ground final reliable passed
  exact ⟨base, rests, rests.congr (h.successors_eq_of_reaches ground final reliable passed)⟩

/-- What the table says, results say. -/
theorem reaches_resultLookup {x y : DeclId} (passed : Passed store log id x)
    (reached : (w.effective.lookup w.store).Reaches x y) : last.resultLookup.Reaches x y := by
  induction reached with
  | refl => exact .refl _
  | @head a b _ step _ ih =>
    refine .head ?_ (ih ((h.prunes ground final reliable).closed passed b step))
    obtain ⟨c, hc, above, has⟩ := passed
    rw [h.successors_eq ground final reliable hc above has] at step
    refine Ascent.mem_successors_resultLookup (h.later.results (h.results c hc)) ?_
    rwa [OverrideSynthesis.set_handed]

end Passed

end Alongside

end ClassSymbols
