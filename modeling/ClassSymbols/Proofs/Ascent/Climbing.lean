import ClassSymbols.Proofs.Overrides.SupertypeOrder
import ClassSymbols.Proofs.Resolution.Cycles

/-!
# Climbing hierarchies

The effective members of classes can be computed on a store alone: one class after the other, each
after its supertypes, where the results of supertypes are passed on. What a member overrides is then
what stored declarations say, and fake overrides are stored with a result unless it has conflicts.

## Main definitions

* `Ascent` — a store with the results so far.
* `Ascent.climb`, `Ascent.climbAll` — the results of further classes.
* `Store.BottomUp` — whether classes are listed after their supertypes.

## Main statements

* `Ascent.climb_eq`, `Ascent.climb_cases` — what one step adds.
* `Store.BottomUp.not_cyclic` — no cycle is reached from classes that are listed after their
  supertypes.
-/

namespace ClassSymbols

/-- A store, and the results of the classes that were computed on it. -/
structure Ascent where
  store : Store
  results : OrderedMap DeclId OverrideSynthesis := .empty

namespace Ascent

/-- What the direct supertypes of a class offer, as far as their classes are found and have
results. -/
def supertypesOf (ascent : Ascent) (id : DeclId) : List SupertypeMembers :=
  match (ascent.store.get? id).bind (·.class?) with
  | none => []
  | some data => data.supertypes.filterMap fun supertype => do
      let owner ← supertype.classId?.bind ascent.store.findClass?
      let result ← ascent.results.get? owner
      return ⟨supertype, owner, result.set.memberIds⟩

/-- Computes the result of a further class from its declared members and the results of its
supertypes. A class for which this fails has no result. -/
def climb (options : SynthesisOptions) (ascent : Ascent) (id : DeclId) : Ascent :=
  match (classMembers id >>= fun declared =>
    synthesize options id declared (ascent.supertypesOf id)) ascent.store with
  | .ok result store => ⟨store, ascent.results.insert id result⟩
  | .error _ store => ⟨store, ascent.results⟩

def climbAll (options : SynthesisOptions) (ascent : Ascent) (order : List DeclId) : Ascent :=
  order.foldl (climb options) ascent

end Ascent

/-- Whether each of some classes is listed once and after all its direct supertypes that are found,
where some classes have been listed before. -/
def Store.BottomUp (store : Store) : List DeclId → List DeclId → Prop
  | _, [] => True
  | done, id :: rest =>
    id ∉ done ∧ (∃ data, store.IsClass id data) ∧
      (∀ parent, store.Parent id parent → parent ∈ done) ∧
      store.BottomUp (id :: done) rest

namespace Store.BottomUp

variable {store : Store} {done order : List DeclId}

theorem isClass (h : store.BottomUp done order) : ∀ id ∈ order, ∃ data, store.IsClass id data := by
  induction order generalizing done with
  | nil => simp
  | cons id rest ih =>
    obtain ⟨-, isClass, -, later⟩ := h
    exact List.forall_mem_cons.2 ⟨isClass, ih later⟩

/-- The direct supertypes of the classes are listed, too. -/
theorem parent_mem (h : store.BottomUp done order) :
    ∀ id ∈ order, ∀ parent, store.Parent id parent → parent ∈ done ∨ parent ∈ order := by
  induction order generalizing done with
  | nil => simp
  | cons id rest ih =>
    obtain ⟨-, -, parents, later⟩ := h
    refine List.forall_mem_cons.2
      ⟨fun parent step => .inl (parents parent step), fun other ho parent step => ?_⟩
    rcases ih later other ho parent step with listed | listed
    · rcases List.mem_cons.1 listed with rfl | listed
      · exact .inr List.mem_cons_self
      · exact .inl listed
    · exact .inr (List.mem_cons_of_mem _ listed)

/-- No cycle is reached from classes that are listed after their supertypes. -/
theorem not_cyclic (h : store.BottomUp done order) (old : ∀ id ∈ done, ¬store.Cyclic id) :
    ∀ id ∈ order, ¬store.Cyclic id := by
  induction order generalizing done with
  | nil => simp
  | cons id rest ih =>
    obtain ⟨-, -, parents, later⟩ := h
    have first : ¬store.Cyclic id := by
      intro cyclic
      obtain ⟨parent, step, cyclic⟩ := cyclic.exists_parent
      exact old parent (parents parent step) cyclic
    exact List.forall_mem_cons.2 ⟨first, ih later (List.forall_mem_cons.2 ⟨first, old⟩)⟩

/-- No chain of supertypes is longer than the list. -/
theorem length_le_of_isChain {n : Nat} (h : store.BottomUp done order)
    (old : ∀ id ∈ done, ∀ path, List.IsChain store.Parent (id :: path) → (id :: path).length ≤ n) :
    ∀ id ∈ order, ∀ path, List.IsChain store.Parent (id :: path) →
      (id :: path).length ≤ n + order.length := by
  induction order generalizing done n with
  | nil => simp
  | cons id rest ih =>
    obtain ⟨-, -, parents, later⟩ := h
    have first : ∀ path, List.IsChain store.Parent (id :: path) → (id :: path).length ≤ n + 1 := by
      rintro (_ | ⟨parent, path⟩) chain
      · exact Nat.le_add_left 1 n
      · obtain ⟨step, chain⟩ := List.isChain_cons_cons.1 chain
        exact Nat.succ_le_succ (old parent (parents parent step) path chain)
    have known : ∀ other ∈ id :: done, ∀ path, List.IsChain store.Parent (other :: path) →
        (other :: path).length ≤ n + 1 :=
      List.forall_mem_cons.2 ⟨first,
        fun other ho path chain => Nat.le_succ_of_le (old other ho path chain)⟩
    rw [List.length_cons, Nat.add_comm rest.length, ← Nat.add_assoc]
    exact List.forall_mem_cons.2
      ⟨fun path chain => Nat.le_trans (first path chain) (Nat.le_add_right _ _), ih later known⟩

end Store.BottomUp

/-! ### Decisions -/

def Store.parents (store : Store) (id : DeclId) : List DeclId :=
  match (store.get? id).bind (·.class?) with
  | none => []
  | some data => data.supertypes.filterMap fun supertype => supertype.classId?.bind store.findClass?

section Decisions

variable {store : Store} {id parent : DeclId}

theorem Store.exists_isClass_iff :
    (∃ data, store.IsClass id data) ↔ ((store.get? id).bind (·.class?)).isSome := by
  rw [Option.isSome_iff_exists]
  exact exists_congr fun data => Option.bind_eq_some_iff.symm

theorem Store.mem_parents_iff : parent ∈ store.parents id ↔ store.Parent id parent := by
  unfold parents
  constructor
  · intro listed
    split at listed
    · cases listed
    · next data found =>
      obtain ⟨declaration, stored, hc⟩ := Option.bind_eq_some_iff.1 found
      exact ⟨data, ⟨declaration, stored, hc⟩, List.mem_filterMap.1 listed⟩
  · rintro ⟨data, ⟨declaration, stored, hc⟩, step⟩
    simpa [stored, hc] using step

instance : Decidable (∃ data, store.IsClass id data) :=
  decidable_of_iff _ Store.exists_isClass_iff.symm

instance {done : List DeclId} : Decidable (∀ parent, store.Parent id parent → parent ∈ done) :=
  decidable_of_iff (∀ parent ∈ store.parents id, parent ∈ done)
    (forall_congr' fun _ => imp_congr_left Store.mem_parents_iff)

instance Store.BottomUp.decidable :
    (done order : List DeclId) → Decidable (store.BottomUp done order)
  | _, [] => isTrue trivial
  | done, id :: rest =>
    have := decidable (id :: done) rest
    inferInstanceAs (Decidable (_ ∧ _ ∧ _ ∧ _))

end Decisions

/-! ## One step -/

namespace OverrideSynthesis

/-- The fake overrides that are stored with a result. -/
def stored (synthesis : OverrideSynthesis) : List Declaration :=
  if synthesis.hasConflicts then [] else synthesis.pending

/-- The result as it is passed on: with its fake overrides if they are not stored. -/
def handed (synthesis : OverrideSynthesis) : OverrideSynthesis :=
  if synthesis.hasConflicts then synthesis else { synthesis with pending := [] }

variable (synthesis : OverrideSynthesis)

@[simp] theorem set_handed : synthesis.handed.set = synthesis.set := by
  unfold handed
  split <;> rfl

@[simp] theorem conflicts_handed : synthesis.handed.conflicts = synthesis.conflicts := by
  unfold handed
  split <;> rfl

/-- If nothing is left to be stored, all fake overrides are stored. -/
theorem stored_eq_of_handed (settled : synthesis.handed.pending = []) :
    synthesis.stored = synthesis.pending := by
  unfold handed at settled
  unfold stored
  split at settled
  · next conflicting => rw [if_pos conflicting, settled]
  · next clean => rw [if_neg clean]

theorem pending_handed_of_clean (clean : synthesis.conflicts = []) :
    synthesis.handed.pending = [] := by
  simp [handed, hasConflicts, clean]

end OverrideSynthesis

theorem Store.Batch.stored {store : Store} {next : DeclId} {synthesis : OverrideSynthesis}
    (h : store.Batch next synthesis.pending) : store.Batch next synthesis.stored := by
  unfold OverrideSynthesis.stored
  split
  · exact batch_nil h.next_le
  · exact h

/-- No class is stored with a result. -/
theorem class?_of_mem_stored {options : SynthesisOptions} {lookup : OverriddenLookup}
    {owner : DeclId} {declared : List DeclId} {supertypes : List SupertypeMembers}
    {store after : Store} {synthesis : OverrideSynthesis} (wf : store.WellFormed)
    (ok : synthesizeWith options lookup owner declared supertypes store = .ok synthesis after)
    {fake : Declaration} (hf : fake ∈ synthesis.stored) : fake.class? = none := by
  unfold OverrideSynthesis.stored at hf
  split at hf
  · cases hf
  · exact Declaration.class?_eq_none_of_isCallable (isCallable_of_synthesizeWith wf ok hf)

/-- A synthesis that may store something stores its fake overrides unless there are conflicts. -/
theorem synthesize_eq_ok {options : SynthesisOptions} {owner : DeclId} {declared : List DeclId}
    {supertypes : List SupertypeMembers} {store after : Store} {synthesis : OverrideSynthesis}
    (ok : synthesizeWith options store.overriddenLookup owner declared supertypes store =
      .ok synthesis after) :
    synthesize options owner declared supertypes store =
      .ok synthesis.handed (store.receive after.next synthesis.stored) := by
  have same : after = { store with next := after.next } :=
    store_eq_of_synthesizeWith (gives_ok_iff.2 ok)
  rw [synthesize_eq, ok, Store.receive, ← same]
  unfold OverrideSynthesis.handed OverrideSynthesis.stored
  cases conflicting : synthesis.hasConflicts <;>
    simp [conflicting, OverrideSynthesis.register, Store.insertAll]

namespace Ascent

variable {options : SynthesisOptions} {ascent : Ascent} {id x : DeclId} {data : ClassData}

theorem supertypesOf_of_isClass (h : ascent.store.IsClass id data) :
    ascent.supertypesOf id = data.supertypes.filterMap fun supertype => do
      let owner ← supertype.classId?.bind ascent.store.findClass?
      let result ← ascent.results.get? owner
      return ⟨supertype, owner, result.set.memberIds⟩ := by
  obtain ⟨declaration, stored, hc⟩ := h
  simp [supertypesOf, stored, hc]

/-- What is offered is what the results of supertypes that are found have. -/
theorem exists_of_mem_supertypesOf (h : ascent.store.IsClass id data) {m : SupertypeMembers}
    (hm : m ∈ ascent.supertypesOf id) : m.supertype ∈ data.supertypes ∧
      m.supertype.classId?.bind ascent.store.findClass? = some m.owner ∧
      ∃ result, ascent.results.get? m.owner = some result ∧ result.set.memberIds = m.members := by
  rw [supertypesOf_of_isClass h, List.mem_filterMap] at hm
  obtain ⟨supertype, hs, e⟩ := hm
  obtain ⟨owner, found, e⟩ := Option.bind_eq_some_iff.1 e
  obtain ⟨result, known, e⟩ := Option.bind_eq_some_iff.1 e
  obtain rfl := Option.some.inj e
  exact ⟨hs, found, result, known, rfl⟩

/-- If the supertypes that are found have results, each of them offers something. -/
theorem map_supertypesOf (h : ascent.store.IsClass id data)
    (known : ∀ supertype ∈ data.supertypes,
      ∀ parent, supertype.classId?.bind ascent.store.findClass? = some parent →
      (ascent.results.get? parent).isSome) :
    (ascent.supertypesOf id).map (fun m => (m.supertype, m.owner)) =
      data.supertypes.filterMap fun supertype =>
        (supertype.classId?.bind ascent.store.findClass?).map (supertype, ·) := by
  rw [supertypesOf_of_isClass h, List.map_filterMap]
  refine List.filterMap_congr fun supertype hs => ?_
  cases found : supertype.classId?.bind ascent.store.findClass? with
  | none => rfl
  | some parent =>
    obtain ⟨result, known⟩ := Option.isSome_iff_exists.1 (known supertype hs parent found)
    simp [known]

/-- What one step adds. -/
theorem climb_eq {declared : List DeclId} (known : ascent.store.members? id = some declared)
    {synthesis : OverrideSynthesis} {after : Store}
    (ok : synthesizeWith options ascent.store.overriddenLookup id declared
      (ascent.supertypesOf id) ascent.store = .ok synthesis after) : ascent.climb options id =
      ⟨ascent.store.receive after.next synthesis.stored,
        ascent.results.insert id synthesis.handed⟩ := by
  have step : Gives (classMembers id >>= fun declared =>
    synthesize options id declared (ascent.supertypesOf id))
      ascent.store (.ok synthesis.handed) (ascent.store.receive after.next synthesis.stored) :=
    gives_bind_iff.2 (.inr ⟨declared, ascent.store, gives_classMembers_of_known known,
      gives_ok_iff.2 (synthesize_eq_ok ok)⟩)
  rw [climb, gives_ok_iff.1 step]

/-- A step computes a result, or leaves everything as it is. -/
theorem climb_cases (options : SynthesisOptions) {declared : List DeclId}
    (known : ascent.store.members? id = some declared) :
    (∃ synthesis after, synthesizeWith options ascent.store.overriddenLookup id declared
        (ascent.supertypesOf id) ascent.store = .ok synthesis after ∧
      ascent.climb options id = ⟨ascent.store.receive after.next synthesis.stored,
        ascent.results.insert id synthesis.handed⟩) ∨
    ascent.climb options id = ascent := by
  cases run : synthesizeWith options ascent.store.overriddenLookup id declared
    (ascent.supertypesOf id) ascent.store with
  | ok synthesis after => exact .inl ⟨synthesis, after, rfl, climb_eq known run⟩
  | error e after =>
    obtain rfl := synthesizeWith_eq_error run
    refine .inr ?_
    have fails : Gives (classMembers id >>= fun declared =>
        synthesize options id declared (ascent.supertypesOf id)) ascent.store
          (.error e) ascent.store :=
      gives_bind_iff.2 (.inr ⟨declared, ascent.store, gives_classMembers_of_known known,
        gives_error_iff.2 (by rw [synthesize_eq, run])⟩)
    rw [climb, gives_error_iff.1 fails]

/-- Results stay. -/
theorem get?_climb (apart : id ≠ x) :
    (ascent.climb options id).results.get? x = ascent.results.get? x := by
  unfold climb
  split
  · rw [OrderedMap.get?_insert, if_neg apart]
  · rfl

end Ascent

end ClassSymbols
