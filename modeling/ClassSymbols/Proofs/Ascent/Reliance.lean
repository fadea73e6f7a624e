import ClassSymbols.Proofs.Ascent.Climbing
import ClassSymbols.Proofs.Ascent.Enclosed
import ClassSymbols.Proofs.Overrides.Pruning
import ClassSymbols.Proofs.Resolution.Laziness

/-!
# Ascents that can be relied on

Whoever climbs a hierarchy knows what stored declarations say about overriding, and not what results
say. This is enough for a class if the declared members of all classes above it are recorded: then
both say the same. It is also enough if some of them are not, as long as the stored declarations of
each lead to one such member at most, and no clash is found between members that stand for the same
declaration by what results say.

## Main definitions

* `Ascent.Recorded` — whether a stored declaration says of a declared member what the result of its
  class says.
* `Ascent.Traced` — whether stored declarations lead from a member to one that is not recorded, or
  to none.
* `Ascent.Reliable` — whether the result of a class can be relied on.
* `Climbed` — what stays true in the course of an ascent.

## Main statements

* `Ascent.Reliable.of_recorded` — the classes below which all is recorded.
* `Ascent.Reliable.of_unrecorded` — the classes where nothing is recorded and no clash is found.
* `Climbed.climbAll` — what stays true of all steps.
-/

namespace ClassSymbols

open Relation

namespace Ascent

def resultLookup (ascent : Ascent) : OverriddenLookup where
  successors x := ascent.results.values.flatMap (·.set.overriddenBy x)
  support := ascent.results.values.flatMap (·.set.overridden.keys)
  mem_support x nonempty := by
    obtain ⟨y, hy⟩ := List.exists_mem_of_ne_nil _ nonempty
    obtain ⟨result, listed, hy⟩ := List.mem_flatMap.1 hy
    refine List.mem_flatMap.2 ⟨result, listed, (OrderedMap.mem_keys_iff _ x).2 ?_⟩
    by_contra unknown
    simp [OverrideSet.overriddenBy, Option.not_isSome_iff_eq_none.1 unknown] at hy

theorem mem_successors_resultLookup {ascent : Ascent} {a x y : DeclId} {result : OverrideSynthesis}
    (known : ascent.results.get? a = some result) (overrides : y ∈ result.set.overriddenBy x) :
    y ∈ ascent.resultLookup.successors x := by
  have listed := List.mem_map_of_mem (f := Prod.snd) ((OrderedMap.mem_entries_iff _).2 known)
  exact List.mem_flatMap.2 ⟨result, listed, overrides⟩

/-- Whether a member is declared in a class that another class extends, directly or not. -/
def DeclaredAbove (ascent : Ascent) (a x : DeclId) : Prop :=
  ∃ b members, TransGen ascent.store.Parent a b ∧ ascent.store.members? b = some members ∧
    x ∈ members

/-- Whether a member is called `name` and is one of those that the direct supertypes of a class
have. -/
def Inherits (ascent : Ascent) (a : DeclId) (name : String) (x : DeclId) : Prop :=
  (∃ b result, ascent.store.Parent a b ∧ ascent.results.get? b = some result ∧
    x ∈ result.set.memberIds) ∧
  ∃ declaration, ascent.store.get? x = some declaration ∧ declaration.name = name

/-- Whether the stored declaration of a declared member says that it overrides what the result of
its class says that it overrides. This is said of no other members. -/
def Recorded (ascent : Ascent) (x : DeclId) : Prop :=
  ∀ a members result, ascent.store.members? a = some members → x ∈ members →
    ascent.results.get? a = some result →
    ∀ y, y ∈ ascent.store.overridden x ↔ y ∈ result.set.overriddenBy x

instance (ascent : Ascent) : DecidablePred ascent.Recorded := fun x =>
  decidable_of_iff (∀ entry ∈ ascent.results.entries, ∀ members ∈ ascent.store.members? entry.1,
      x ∈ members → (∀ y ∈ ascent.store.overridden x, y ∈ entry.2.set.overriddenBy x) ∧
        ∀ y ∈ entry.2.set.overriddenBy x, y ∈ ascent.store.overridden x)
    ⟨fun all a members result known listed computed y =>
        have both :=
          all (a, result) ((OrderedMap.mem_entries_iff _).2 computed) members known listed
        ⟨both.1 y, both.2 y⟩,
      fun h entry listed members known inside =>
        have both :=
          h entry.1 members entry.2 known inside ((OrderedMap.mem_entries_iff _).1 listed)
        ⟨fun y => (both y).1, fun y => (both y).2⟩⟩

/-- Whether stored declarations lead from a member to recorded members and to at most one other
member, to which all of them lead and whose declaration says nothing. Of two such members, one
might override the other without being known to. -/
def Traced (ascent : Ascent) (x : DeclId) : Prop :=
  ∃ base, ascent.store.overriddenLookup.RestsOn ascent.Recorded x base

section Traced

variable {ascent : Ascent} {x y : DeclId}

theorem Traced.of_unrecorded (silent : ascent.store.overridden x = []) : ascent.Traced x :=
  FiniteGraph.exists_restsOn_of_successors_eq_nil silent

/-- A recorded member that overrides one member is traced if that member is. -/
theorem Traced.of_recorded (recorded : ascent.Recorded x)
    (overrides : ascent.store.overridden x = [y]) (traced : ascent.Traced y) : ascent.Traced x := by
  have successors : ascent.store.overriddenLookup.successors x = [y] := overrides
  obtain ⟨base, rests⟩ := traced
  refine ⟨base, FiniteGraph.RestsOn.of_successors recorded ?_ ?_⟩ <;> simp [successors, rests]

end Traced

/-- Whether stored declarations say enough for a class: they trace the members that are declared
above it, and if a clash is found in it, inherited members of that name which meet by what results
say meet by what stored declarations say, too. -/
structure Suffices (ascent : Ascent) (a : DeclId) : Prop where
  traced : ∀ x, ascent.DeclaredAbove a x → ascent.Traced x
  genuine : ∀ result, ascent.results.get? a = some result → ∀ conflict ∈ result.conflicts,
    conflict.kind = .inheritedClash → ∀ x y, ascent.Inherits a conflict.name x →
      ascent.Inherits a conflict.name y → ascent.resultLookup.Meet x y →
      ascent.store.overriddenLookup.Meet x y

/-- Whether the result of a class can be relied on: the results above it have left no fake override
to be stored, and for the class and each class above it, the members that are declared above are
recorded, or stored declarations say enough. -/
structure Reliable (ascent : Ascent) (id : DeclId) : Prop where
  settled : ∀ a, TransGen ascent.store.Parent id a →
    ∀ result, ascent.results.get? a = some result → result.pending = []
  grounded : ∀ a, ReflTransGen ascent.store.Parent id a →
    (∀ x, ascent.DeclaredAbove a x → ascent.Recorded x) ∨ ascent.Suffices a

namespace Reliable

variable {ascent : Ascent} {id a : DeclId}

/-- What is above a class that can be relied on can be relied on. -/
theorem above (h : ascent.Reliable id) (path : ReflTransGen ascent.store.Parent id a) :
    ascent.Reliable a where
  settled b further := h.settled b (TransGen.trans_right path further)
  grounded b further := h.grounded b (path.trans further)

/-- Let a list of classes hold what is above them. They can be relied on if no conflicts are found
in them and stored declarations trace their declared members. -/
theorem of_clean {classes : List DeclId}
    (closed : ∀ a ∈ classes, ∀ b, ascent.store.Parent a b → b ∈ classes)
    (clean : ∀ a ∈ classes, ∀ result, ascent.results.get? a = some result →
      result.pending = [] ∧ result.conflicts = [])
    (traced : ∀ a ∈ classes, ∀ members, ascent.store.members? a = some members →
      ∀ x ∈ members, ascent.Traced x) (listed : id ∈ classes) : ascent.Reliable id := by
  have above {a : DeclId} (path : ReflTransGen ascent.store.Parent id a) : a ∈ classes := by
    induction path with
    | refl => exact listed
    | tail _ step ih => exact closed _ ih _ step
  exact
    { settled := fun a path result known => (clean a (above path.to_reflTransGen) result known).1
      grounded := fun a path => .inr
        { traced := fun x ⟨b, members, further, known, hx⟩ =>
            traced b (above (path.trans further.to_reflTransGen)) members known x hx
          genuine := fun result known conflict hc => by
            simp [(clean a (above path) result known).2] at hc } }

variable (settled : ∀ a, TransGen ascent.store.Parent id a →
  ∀ result, ascent.results.get? a = some result → result.pending = [])
include settled

/-- A class can be relied on if all that is declared above it is recorded. -/
theorem of_recorded (recorded : ∀ x, ascent.DeclaredAbove id x → ascent.Recorded x) :
    ascent.Reliable id where
  settled := settled
  grounded _ path := .inl fun x ⟨b, members, further, declared⟩ =>
    recorded x ⟨b, members, TransGen.trans_right path further, declared⟩

/-- A class can be relied on if nothing is recorded above it, and no clash is found in it and in the
classes above it. -/
theorem of_unrecorded (silent : ∀ x, ascent.DeclaredAbove id x → ascent.store.overridden x = [])
    (clean : ∀ a, ReflTransGen ascent.store.Parent id a → ∀ result,
      ascent.results.get? a = some result →
      ∀ conflict ∈ result.conflicts, conflict.kind ≠ .inheritedClash) : ascent.Reliable id where
  settled := settled
  grounded a path := .inr
    { traced := fun x ⟨b, members, further, declared⟩ =>
        Traced.of_unrecorded
          (silent x ⟨b, members, TransGen.trans_right path further, declared⟩)
      genuine := fun result known conflict hc clash =>
        absurd clash (clean a path result known conflict hc) }

end Reliable

end Ascent

/-! ## Stores that are climbed -/

/-- Stores in which nothing was computed yet: classes and their members are stored and listed, and
declarations refer to ids that have been given out. -/
structure Store.Ground (store : Store) : Prop where
  sound : store.Sound
  indexed : store.Indexed
  eager : store.Eager
  registered : store.Registered
  enclosed : store.Enclosed
  positive : 0 < store.next.number

/-- Whether declarations are those of a hierarchy in which nothing was computed yet: they have
different ids, and what they refer to has been given out. The members of classes are known and
declared, each by one class. -/
def Declaration.Fill (next : DeclId) (declarations : List Declaration) : Prop :=
  0 < next.number ∧ (declarations.map (·.id)).Nodup ∧
    (∀ declaration ∈ declarations, declaration.isEager = true ∧
      declaration.id.number < next.number ∧ declaration.Owned (·.number < next.number)) ∧
    ∀ declaration ∈ declarations, ∀ member ∈ declaration.listed,
      (∃ other ∈ declarations, other.id = member) ∧
      ∀ other ∈ declarations, member ∈ other.listed → declaration.id = other.id

instance (next : DeclId) (declarations : List Declaration) :
    Decidable (Declaration.Fill next declarations) :=
  inferInstanceAs (Decidable (_ ∧ _ ∧ _ ∧ _))

theorem Store.ground_receive_empty {next : DeclId} {declarations : List Declaration}
    (fill : Declaration.Fill next declarations) :
    (Store.empty.receive next declarations).Ground := by
  obtain ⟨positive, nodup, given, listed⟩ := fill
  have allocated : ∀ declaration ∈ declarations, ∀ member ∈ declaration.listed,
      member.number < next.number := by
    intro declaration hd member hm
    obtain ⟨other, ho, rfl⟩ := (listed declaration hd member hm).1
    exact (given other ho).2.1
  exact
    { sound := sound_receive_empty (fun declaration hd => (given declaration hd).2.1) allocated
        fun declaration hd other ho member hm => (listed declaration hd member hm).2 other ho
      indexed := indexed_receive_empty nodup
      eager := eager_receive_empty fun declaration hd => (given declaration hd).1
      registered := registered_receive_empty nodup fun declaration hd member hm =>
        (listed declaration hd member hm).1
      enclosed := enclosed_receive_empty fun declaration hd => (given declaration hd).2.2
      positive := by rwa [next_receive] }

theorem Store.Still.receive {s t : Store} (h : s.Still t) {next : DeclId}
    {declarations : List Declaration}
    (plain : ∀ declaration ∈ declarations, declaration.class? = none) :
    s.Still (t.receive next declarations) := by
  refine ⟨h.complete, fun {id data} isClass => ?_⟩
  obtain ⟨declaration, stored, hc⟩ := isClass
  rcases get?_receive_cases stored with old | ⟨hd, -⟩
  · exact h.classes ⟨declaration, old, hc⟩
  · simp [plain declaration hd] at hc

/-- What stays true in the course of an ascent: the store has evolved and has no further classes,
and some classes have been computed. -/
structure Climbed (store : Store) (done : List DeclId) (ascent : Ascent) : Prop where
  evolves : store.Evolves ascent.store
  sound : ascent.store.Sound
  still : store.Still ascent.store
  computed : ∀ {id result}, ascent.results.get? id = some result → id ∈ done

/-- Whether an ascent has been continued: its store has evolved, and no result was lost. -/
structure Ascent.LeadsTo (ascent later : Ascent) : Prop where
  store : ascent.store.Evolves later.store
  results : ∀ {id result}, ascent.results.get? id = some result →
    later.results.get? id = some result

theorem Ascent.LeadsTo.trans {a b c : Ascent} (h : a.LeadsTo b) (g : b.LeadsTo c) : a.LeadsTo c :=
  ⟨h.store.trans g.store, fun known => g.results (h.results known)⟩

namespace Climbed

variable {store : Store} {options : SynthesisOptions} {done : List DeclId} {ascent : Ascent}

theorem start (sound : store.Sound) (eager : store.Eager) : Climbed store [] { store } where
  evolves := .refl store
  sound := sound
  still := ⟨eager.complete, fun isClass => ⟨_, isClass⟩⟩
  computed known := by simp at known

variable (h : Climbed store done ascent)
include h

theorem findClass?_eq (sound : store.Sound) (k : ClassId) :
    ascent.store.findClass? k = store.findClass? k :=
  h.still.findClass?_between h.evolves (.refl _) sound.toWellFormed k

theorem parent_iff (sound : store.Sound) {a b : DeclId} :
    ascent.store.Parent a b ↔ store.Parent a b := by
  have found : ascent.store.findClass? = store.findClass? := funext (h.findClass?_eq sound)
  unfold Store.Parent
  rw [found]
  constructor
  · rintro ⟨data, isClass, step⟩
    obtain ⟨old, stored⟩ := h.still.classes isClass
    obtain ⟨data', isClass', same⟩ := h.evolves.isClass stored
    obtain rfl := isClass.unique isClass'
    exact ⟨old, stored, ClassData.supertypes_eq same ▸ step⟩
  · rintro ⟨data, isClass, step⟩
    obtain ⟨data', isClass', same⟩ := h.evolves.isClass isClass
    exact ⟨data', isClass', (ClassData.supertypes_eq same).symm ▸ step⟩

theorem parent_eq (sound : store.Sound) : ascent.store.Parent = store.Parent :=
  funext₂ fun _ _ => propext (h.parent_iff sound)

theorem members?_iff {a : DeclId} {members : List DeclId} :
    ascent.store.members? a = some members ↔ store.members? a = some members := by
  refine ⟨fun known => ?_, fun known => h.evolves.listed known⟩
  obtain ⟨data, isClass, -⟩ := Store.members?_eq_some_iff.1 known
  obtain ⟨old, stored⟩ := h.still.classes isClass
  obtain ⟨members', listed⟩ := h.still.complete a old stored
  have listed := Store.members?_eq_some_iff.2 ⟨old, stored, listed⟩
  rw [listed, ← known, ← h.evolves.listed listed]

/-- Nothing is asked of the ids that were given out on the way: no class lists them. -/
theorem recorded_of_le (sound : store.Sound) {x : DeclId}
    (le : store.next.number ≤ x.number) : ascent.Recorded x := by
  intro a members result known listed
  have below := sound.listed_allocated (h.members?_iff.1 known) x listed
  omega

/-- One step. -/
theorem climb (options : SynthesisOptions) {id : DeclId} {data : ClassData}
    (isClass : store.IsClass id data) (new : id ∉ done) :
    Climbed store (id :: done) (ascent.climb options id) ∧
      ascent.LeadsTo (ascent.climb options id) := by
  obtain ⟨declared, known⟩ := h.still.complete id data isClass
  have known := h.evolves.listed (Store.members?_eq_some_iff.2 ⟨data, isClass, known⟩)
  have grown : ascent.store.Evolves (ascent.climb options id).store ∧
      (ascent.climb options id).store.Sound ∧ store.Still (ascent.climb options id).store := by
    rcases Ascent.climb_cases options known with ⟨synthesis, after, ok, e⟩ | e
    · have batch := (ready_of_synthesizeWith h.sound.toWellFormed ok).batch.stored
      rw [e]
      exact ⟨batch.evolves h.sound.toWellFormed, h.sound.receive batch,
        h.still.receive fun _ hf => class?_of_mem_stored h.sound.toWellFormed ok hf⟩
    · rw [e]
      exact ⟨.refl _, h.sound, h.still⟩
  obtain ⟨evolves, sound, still⟩ := grown
  refine ⟨⟨h.evolves.trans evolves, sound, still, fun {other result} known => ?_⟩, evolves,
    fun {other result} known => ?_⟩
  · by_cases same : id = other
    · exact same ▸ List.mem_cons_self
    · rw [Ascent.get?_climb same] at known
      exact List.mem_cons_of_mem _ (h.computed known)
  · have apart : id ≠ other := by
      rintro rfl
      exact new (h.computed known)
    rwa [Ascent.get?_climb apart]

/-- All steps. -/
theorem climbAll (options : SynthesisOptions) {order : List DeclId}
    (bottomUp : store.BottomUp done order) :
    Climbed store (order.reverse ++ done) (ascent.climbAll options order) ∧
      ascent.LeadsTo (ascent.climbAll options order) := by
  induction order generalizing done ascent with
  | nil => exact ⟨h, .refl _, fun known => known⟩
  | cons id rest ih =>
    obtain ⟨new, ⟨data, isClass⟩, -, later⟩ := bottomUp
    obtain ⟨next, step⟩ := h.climb options isClass new
    obtain ⟨last, steps⟩ := ih next later
    rw [List.reverse_cons, List.append_assoc]
    exact ⟨last, step.trans steps⟩

end Climbed

end ClassSymbols
