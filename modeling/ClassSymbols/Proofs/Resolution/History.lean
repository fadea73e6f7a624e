import ClassSymbols.Proofs.Loading.Members
import ClassSymbols.Proofs.Overrides.Reading
import ClassSymbols.Proofs.Resolution.Steps

/-!
# Histories of resolutions

A workspace is the outcome of the results that were computed on it, one after the other, and of what
was read in between: members of classes, and single declarations. Each result was computed from
results before it, and stays.

## Main definitions

* `Computation` — what a result was computed from, and what was computed.
* `Workspace.LeadsTo` — whether a workspace was reached from another one.
* `History` — the computations that lead from one workspace to another.

## Main statements

* `History.facts` — what a workspace keeps of its history.
* `History.still` — if the members of all classes are known from the start, then queries read no
  further classes.
-/

namespace ClassSymbols

/-- A result, and what it was computed from: the workspaces when the class was asked for, and once
the supertypes were resolved and the members of the class were known, the classes that were found
for the supertypes, and their members. -/
structure Computation where
  start : Workspace
  before : Workspace
  owner : DeclId
  supertypes : List Ty
  owners : List (Option DeclId)
  declared : List DeclId
  members : List SupertypeMembers
  synthesis : OverrideSynthesis
  after : Store

namespace Computation

variable (c : Computation)

def key : DeclId × List Ty := (c.owner, c.supertypes)

def input (declarations : List Declaration) : SynthesisInput where
  store := c.before.store
  options := c.before.effective.options
  lookup := c.before.effective.lookup c.before.store
  owner := c.owner
  declared := declarations

def result : OverrideSynthesis := { c.synthesis with pending := [] }

def finish : Workspace :=
  ⟨c.after.insertAll c.synthesis.pending, c.before.effective.keep c.owner c.supertypes c.result⟩

end Computation

/-- Whether a workspace was reached from another one: its store has evolved, and no result was
lost. -/
structure Workspace.LeadsTo (w w' : Workspace) : Prop where
  store : w.store.Evolves w'.store
  options : w'.effective.options = w.effective.options
  cached : ∀ {key result}, w.effective.cache.get? key = some result →
    w'.effective.cache.get? key = some result
  remembered : ∀ {id list}, w.effective.overridden.get? id = some list →
    w'.effective.overridden.get? id = some list

namespace Workspace.LeadsTo

variable {u v w : Workspace}

theorem refl (w : Workspace) : w.LeadsTo w := ⟨.refl _, rfl, fun h => h, fun h => h⟩

theorem trans (h : u.LeadsTo v) (g : v.LeadsTo w) : u.LeadsTo w :=
  ⟨h.store.trans g.store, g.options.trans h.options, fun found => g.cached (h.cached found),
    fun found => g.remembered (h.remembered found)⟩

/-- Whatever the store evolves to, no result is lost. -/
theorem of_evolves {store : Store} (h : w.store.Evolves store) : w.LeadsTo { w with store } :=
  ⟨h, rfl, fun h => h, fun h => h⟩

end Workspace.LeadsTo

/-- The class that was found for a supertype at some point between two workspaces. -/
def FoundBetween (w w' : Workspace) (supertype : Ty) (owner : Option DeclId) : Prop :=
  ∃ u, w.LeadsTo u ∧ u.LeadsTo w' ∧ supertype.classId?.bind u.store.findClass? = owner

/-- Whether a result was computed from results before it. -/
structure Computation.Follows (c : Computation) (origin : Workspace) (log : List Computation) :
    Prop where
  run : synthesizeWith c.before.effective.options (c.before.effective.lookup c.before.store) c.owner
    c.declared c.members c.before.store = .ok c.synthesis c.after
  isClass : ∃ data, c.before.store.IsClass c.owner data ∧ data.supertypes = c.supertypes
  listed : c.before.store.members? c.owner = some c.declared
  new : c.before.effective.cache.get? c.key = none
  started : origin.LeadsTo c.start
  resolved : c.start.LeadsTo c.before
  answers : List.Forall₂ (FoundBetween c.start c.before) c.supertypes c.owners
  matched : c.members.map (fun m => (m.supertype, m.owner)) =
    (c.supertypes.zip c.owners).filterMap fun (supertype, owner) => owner.map (supertype, ·)
  offered : ∀ m ∈ c.members, ∃ c' ∈ log, c'.owner = m.owner ∧
    c'.synthesis.set.memberIds = m.members

/-- The computations that lead from one workspace to another, the last one first. Between them, the
members of classes are read, and single declarations if this is said to be so. -/
inductive History (loads : Prop) (origin : Workspace) : List Computation → Workspace → Prop
  | start : History loads origin [] origin
  | read {log : List Computation} {w : Workspace} {id : DeclId}
      {r : Except SymbolError (List DeclId)} {store : Store} : History loads origin log w →
      Gives (classMembers id) w.store r store → History loads origin log { w with store }
  | load {log : List Computation} {w : Workspace} {next : DeclId} {declarations : List Declaration}
      : loads →
      History loads origin log w → w.store.Batch next declarations →
      History loads origin log { w with store := w.store.receive next declarations }
  | compute {log : List Computation} {c : Computation} : History loads origin log c.before →
      c.Follows origin log → History loads origin (c :: log) c.finish

/-- A workspace without results, the store of which is sound. -/
structure Workspace.Fresh (w : Workspace) : Prop where
  sound : w.store.Sound
  cache : ∀ key, w.effective.cache.get? key = none
  overridden : ∀ id, w.effective.overridden.get? id = none

/-! ## Keeping a result -/

theorem get?_foldl_insert {α : Type} (entries : List (DeclId × α))
    (nodup : (entries.map Prod.fst).Nodup) (map : DeclMap α) (id : DeclId) :
    (entries.foldl (fun known entry => known.insert entry.1 entry.2) map).get? id =
      (OrderedMap.lookup id entries).or (map.get? id) := by
  induction entries generalizing map with
  | nil => rfl
  | cons entry rest ih =>
    obtain ⟨other, a⟩ := entry
    obtain ⟨absent, nodup⟩ := List.nodup_cons.1 nodup
    rw [List.foldl_cons, ih nodup, OrderedMap.lookup, DeclMap.get?_insert]
    by_cases same : other = id
    · subst same
      have missing : OrderedMap.lookup other rest = none := by
        rw [← Option.not_isSome_iff_eq_none, OrderedMap.lookup_isSome_iff]
        exact absent
      simp [missing]
    · simp [same]

namespace Computation

variable (c : Computation)

theorem cache_finish (key : DeclId × List Ty) : c.finish.effective.cache.get? key =
    if c.key = key then some c.result else c.before.effective.cache.get? key :=
  OrderedMap.get?_insert _ _ _ _

theorem overridden_finish (id : DeclId) : c.finish.effective.overridden.get? id =
    (c.synthesis.set.overridden.get? id).or (c.before.effective.overridden.get? id) :=
  get?_foldl_insert _ c.synthesis.set.overridden.nodup_keys _ _

end Computation

/-! ## Computations -/

namespace Computation.Follows

variable {c : Computation} {origin : Workspace} {log : List Computation} (h : c.Follows origin log)
  (sound : c.before.store.Sound)
include h sound

/-- What a run found, and the input of the run. -/
theorem exists_run : ∃ declarations inherited,
    (c.input declarations).Reads c.declared c.members inherited ∧
      c.synthesis = (c.input declarations).outcome inherited ∧
      c.after = { c.before.store with next := ((c.input declarations).run inherited).next } :=
  (synthesizeWith_eq_ok_iff sound.toWellFormed).1 h.run

/-- The fake overrides of a result are stored under ids that have just been given out. -/
theorem batch : c.before.store.Batch c.after.next c.synthesis.pending := by
  obtain ⟨declarations, inherited, reads, e, e'⟩ := h.exists_run sound
  rw [e, e']
  exact reads.batch_pending

theorem isCallable_of_mem_pending {fake : Declaration} (hf : fake ∈ c.synthesis.pending) :
    fake.isCallable = true ∧ fake.visibility.isInheritable = true := by
  obtain ⟨declarations, inherited, reads, e, e'⟩ := h.exists_run sound
  rw [e] at hf
  exact reads.isCallable_of_mem_pending hf

theorem origin_of_mem_pending {fake : Declaration} (hf : fake ∈ c.synthesis.pending) :
    fake.origin = .fakeOverride := by
  obtain ⟨declarations, inherited, reads, e, e'⟩ := h.exists_run sound
  rw [e] at hf
  obtain ⟨next, name, bucket, settles, -, rfl⟩ := SynthesisInput.mem_pending_run_iff.1 hf
  rfl

theorem store_finish :
    c.finish.store = c.before.store.receive c.after.next c.synthesis.pending := by
  obtain ⟨declarations, inherited, reads, e, e'⟩ := h.exists_run sound
  rw [finish, Store.receive, e']

theorem evolves : c.before.store.Evolves c.finish.store := by
  rw [h.store_finish sound]
  exact (h.batch sound).evolves sound.toWellFormed

/-- The fake overrides of a result are stored with it. -/
theorem get?_finish_of_mem_pending {fake : Declaration} (hf : fake ∈ c.synthesis.pending) :
    c.finish.store.get? fake.id = some fake := by
  rw [h.store_finish sound]
  exact (h.batch sound).get?_receive_of_mem hf

/-- The result knows what declared members of the class and its own fake overrides override. -/
theorem declared_or_pending {id : DeclId} {list : List DeclId}
    (found : c.synthesis.set.overridden.get? id = some list) :
    id ∈ c.declared ∨ ∃ fake ∈ c.synthesis.pending, fake.id = id := by
  obtain ⟨declarations, inherited, reads, e, e'⟩ := h.exists_run sound
  rw [e] at found ⊢
  obtain ⟨y, hy⟩ := List.exists_mem_of_ne_nil _ (SynthesisInput.supported_run id list found)
  have mem : y ∈ ((c.input declarations).run inherited).set.overriddenBy id := by
    have found : ((c.input declarations).run inherited).set.overridden.get? id = some list := found
    simpa [OverrideSet.overriddenBy, found] using hy
  rcases SynthesisInput.mem_overriddenBy_run_iff.1 mem with
    ⟨_, _, d, hd, -, rfl, -⟩ | ⟨name, bucket, settles, made, -⟩
  · exact .inl (reads.mem_declaredNamed_iff.1 hd).1
  · exact .inr ⟨_, settles.fakeFor_mem_pending made, rfl⟩

/-- Keeping the result loses nothing, if the members that it speaks of were not spoken of before. -/
theorem later (unknown : ∀ {id list}, c.synthesis.set.overridden.get? id = some list →
    c.before.effective.overridden.get? id = none) : c.before.LeadsTo c.finish := by
  refine ⟨h.evolves sound, rfl, fun {key result} found => ?_, fun {id list} found => ?_⟩
  · have differs : ¬c.key = key := by
      rintro rfl
      simp [h.new] at found
    rw [c.cache_finish, if_neg differs]
    exact found
  · have silent : c.synthesis.set.overridden.get? id = none := by
      by_contra spoken
      obtain ⟨list', spoken⟩ := Option.ne_none_iff_exists'.1 spoken
      simp [unknown spoken] at found
    rw [c.overridden_finish, silent, Option.none_or]
    exact found

end Computation.Follows

/-! ## Facts of a history -/

/-- What a workspace keeps of its history: all results and what they say about overriding. No class
has two results, and the fake overrides are members of no class. -/
structure History.Facts (loads : Prop) (origin : Workspace) (log : List Computation)
    (w : Workspace) : Prop where
  later : origin.LeadsTo w
  sound : w.store.Sound
  cached_iff : ∀ {key result}, w.effective.cache.get? key = some result ↔
    ∃ c ∈ log, c.key = key ∧ c.result = result
  remembered_iff : ∀ {id list}, w.effective.overridden.get? id = some list ↔
    ∃ c ∈ log, c.synthesis.set.overridden.get? id = some list
  finished : ∀ c ∈ log, c.before.LeadsTo c.finish ∧ c.finish.LeadsTo w
  owners : ∀ c ∈ log, ∀ c' ∈ log, c.owner = c'.owner → c = c'
  hidden : ∀ c ∈ log, ∀ fake ∈ c.synthesis.pending, ∀ {id members},
    w.store.members? id = some members → fake.id ∉ members
  follows : ∀ c ∈ log, c.before.store.Sound ∧
    ∃ log₀, History loads origin log₀ c.before ∧ c.Follows origin log₀ ∧ c :: log₀ <:+ log

namespace History

variable {loads : Prop} {origin w : Workspace} {log : List Computation} {c c' : Computation}

theorem facts_start (fresh : origin.Fresh) : Facts loads origin [] origin where
  later := .refl _
  sound := fresh.sound
  cached_iff := by simp [fresh.cache]
  remembered_iff := by simp [fresh.overridden]
  finished := by simp
  owners := by simp
  hidden := by simp
  follows := by simp

namespace Facts

variable (facts : Facts loads origin log w)
include facts

/-- The fake overrides of a result were given ids between those of the stores before and after. -/
theorem bounds (hc : c ∈ log) {fake : Declaration} (hf : fake ∈ c.synthesis.pending) :
    c.before.store.next.number ≤ fake.id.number ∧ fake.id.number < w.store.next.number := by
  obtain ⟨sound, _, _, follows, -⟩ := facts.follows c hc
  have batch := follows.batch sound
  have grown := (facts.finished c hc).2.store.next_le
  rw [follows.store_finish sound, Store.next_receive] at grown
  have := batch.allocated fake hf
  exact ⟨batch.new fake hf, by omega⟩

/-- The members of a class are known from its result on. -/
theorem listed (hc : c ∈ log) : w.store.members? c.owner = some c.declared := by
  obtain ⟨-, _, _, follows, -⟩ := facts.follows c hc
  obtain ⟨step, later⟩ := facts.finished c hc
  exact (step.trans later).store.listed follows.listed

/-- The class of a result stays, with its supertypes. -/
theorem isClass (hc : c ∈ log) {data : ClassData} (stored : w.store.IsClass c.owner data) :
    data.supertypes = c.supertypes := by
  obtain ⟨-, _, _, follows, -⟩ := facts.follows c hc
  obtain ⟨step, later⟩ := facts.finished c hc
  obtain ⟨old, hold, e⟩ := follows.isClass
  obtain ⟨data', ⟨d', hd', hc'⟩, same⟩ := (step.trans later).store.isClass hold
  obtain ⟨d, hd, hc⟩ := stored
  obtain rfl := Option.some.inj (hd.symm.trans hd')
  obtain rfl := Option.some.inj (hc.symm.trans hc')
  exact (ClassData.supertypes_eq same).trans e

/-- What is read in between changes no result, and lists no fake override. -/
theorem evolve {store : Store} (sound : store.Sound) (evolves : w.store.Evolves store) :
    Facts loads origin log { w with store } := by
  have later : w.LeadsTo { w with store } := .of_evolves evolves
  refine ⟨facts.later.trans later, sound, facts.cached_iff, facts.remembered_iff,
    fun c hc => ⟨(facts.finished c hc).1, (facts.finished c hc).2.trans later⟩, facts.owners,
    fun c hc fake hf {id members} known listed => ?_, facts.follows⟩
  rcases evolves.noted known with known | new
  · exact facts.hidden c hc fake hf known listed
  · have := (facts.bounds hc hf).2
    have := new _ listed
    omega

end Facts

section Compute

variable (facts : Facts loads origin log c.before) (follows : c.Follows origin log)
include facts follows

/-- The class of a new result has no result yet. -/
theorem Facts.owner_ne (hc : c' ∈ log) : c'.owner ≠ c.owner := by
  intro same
  obtain ⟨data, stored, e⟩ := follows.isClass
  have key : c'.key = c.key := by
    rw [Computation.key, Computation.key, same, ← facts.isClass hc (same ▸ stored), e]
  have found := facts.cached_iff.2 ⟨c', hc, key, rfl⟩
  simp [follows.new] at found

/-- A new result speaks of no member that an old one speaks of. -/
theorem Facts.unknown {id : DeclId} {list : List DeclId}
    (found : c.synthesis.set.overridden.get? id = some list) :
    c.before.effective.overridden.get? id = none := by
  by_contra spoken
  obtain ⟨list', spoken⟩ := Option.ne_none_iff_exists'.1 spoken
  obtain ⟨c', hc, found'⟩ := facts.remembered_iff.1 spoken
  obtain ⟨sound, _, _, follows', -⟩ := facts.follows c' hc
  have batch := follows.batch facts.sound
  rcases follows.declared_or_pending facts.sound found with hd | ⟨fake, hf, rfl⟩ <;>
    rcases follows'.declared_or_pending sound found' with hd' | ⟨fake', hf', e⟩
  · exact facts.owner_ne follows hc
      (facts.sound.one_owner (facts.listed hc) follows.listed id hd' hd)
  · exact facts.hidden c' hc fake' hf' follows.listed (e ▸ hd)
  · have := facts.sound.listed_allocated (facts.listed hc) _ hd'
    have := batch.new fake hf
    omega
  · have := (facts.bounds hc hf').2
    have := batch.new fake hf
    rw [e] at *
    omega

theorem Facts.compute (history : History loads origin log c.before) :
    Facts loads origin (c :: log) c.finish := by
  have unknown := @facts.unknown _ _ _ _ follows
  have step := follows.later facts.sound unknown
  have store := follows.store_finish facts.sound
  have batch := follows.batch facts.sound
  have known {id : DeclId} {members : List DeclId} (h : c.finish.store.members? id = some members) :
      c.before.store.members? id = some members := batch.members?_receive_of_some (store ▸ h)
  refine ⟨facts.later.trans step, store ▸ facts.sound.receive batch, fun {key result} => ?_,
    fun {id list} => ?_, ?_, ?_, ?_, ?_⟩
  · rw [c.cache_finish]
    simp only [List.mem_cons, exists_eq_or_imp]
    by_cases same : c.key = key
    · subst same
      rw [if_pos rfl, Option.some.injEq]
      refine ⟨fun e => .inl ⟨rfl, e⟩, ?_⟩
      rintro (⟨-, e⟩ | old)
      · exact e
      · have found := facts.cached_iff.2 old
        simp [follows.new] at found
    · rw [if_neg same, facts.cached_iff]
      simp [same]
  · rw [c.overridden_finish]
    simp only [List.mem_cons, exists_eq_or_imp, ← facts.remembered_iff]
    cases spoken : c.synthesis.set.overridden.get? id with
    | none => simp
    | some list' => simp [unknown spoken]
  · rintro other (_ | ⟨_, hc⟩)
    · exact ⟨step, .refl _⟩
    · exact ⟨(facts.finished other hc).1, (facts.finished other hc).2.trans step⟩
  · rintro a (_ | ⟨_, ha⟩) b (_ | ⟨_, hb⟩) same
    · rfl
    · exact absurd same.symm (facts.owner_ne follows hb)
    · exact absurd same (facts.owner_ne follows ha)
    · exact facts.owners a ha b hb same
  · rintro other (_ | ⟨_, hc⟩) fake hf id members h listed
    · have := facts.sound.listed_allocated (known h) _ listed
      have := batch.new fake hf
      omega
    · exact facts.hidden other hc fake hf (known h) listed
  · rintro other (_ | ⟨_, hc⟩)
    · exact ⟨facts.sound, log, history, follows, List.suffix_refl _⟩
    · obtain ⟨sound, log₀, history, follows', suffix⟩ := facts.follows other hc
      exact ⟨sound, log₀, history, follows', suffix.trans (List.suffix_cons _ _)⟩

end Compute

theorem facts (fresh : origin.Fresh) (history : History loads origin log w) :
    Facts loads origin log w := by
  induction history with
  | start => exact facts_start fresh
  | read _ asked ih =>
    obtain ⟨sound, evolves, -⟩ := classMembers_evolves ih.sound asked
    exact ih.evolve sound evolves
  | load _ _ batch ih =>
    exact ih.evolve (ih.sound.receive batch) (batch.evolves ih.sound.toWellFormed)
  | compute before follows ih => exact ih.compute follows before

/-- If the members of all classes are known from the start and nothing is loaded, there are no
further classes. -/
theorem still (fresh : origin.Fresh) (complete : origin.store.Complete)
    (history : History False origin log w) :
    origin.store.Still w.store := by
  induction history with
  | start => exact ⟨complete, fun isClass => ⟨_, isClass⟩⟩
  | read before asked ih =>
    have known := ih.complete_between (before.facts fresh).later.store (.refl _)
    rwa [eq_of_classMembers_of_complete known asked]
  | load loads => exact loads.elim
  | compute before follows ih =>
    have sound := (before.facts fresh).sound
    refine ⟨complete, fun {id data} isClass => ?_⟩
    rw [follows.store_finish sound] at isClass
    obtain ⟨declaration, stored, hc⟩ := isClass
    rcases Store.get?_receive_cases stored with old | ⟨hf, -⟩
    · exact ih.classes ⟨declaration, old, hc⟩
    · simp [Declaration.class?_eq_none_of_isCallable (follows.isCallable_of_mem_pending sound hf).1]
        at hc

end History

end ClassSymbols
