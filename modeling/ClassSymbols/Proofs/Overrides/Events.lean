import ClassSymbols.Proofs.Overrides.Additions

/-!
# The events of a synthesis

A run is a list of events: an inherited member is checked against a declared member of its name, or
a bucket is settled. What an event adds depends on the events before it through the next id alone.

## Main definitions

* `SynthesisEvent` — the events.
* `SynthesisInput.additions` — what an event adds.
* `SynthesisInput.events` — the events of a run.
* `SynthesisInput.stamped` — the events with the next id at each of them.
* `SynthesisInput.log` — what the events of a run add.

## Main statements

* `SynthesisInput.run_eq` — a run adds what its events add.
* `SynthesisInput.pairwise_stamped` — no id is given out twice.
-/

namespace ClassSymbols

/-- A part of a synthesis: a member is checked against a declared one, or a bucket is settled. -/
inductive SynthesisEvent where
  | check (name : String) (member : Inherited) (declared : DeclaredMember)
  | settle (name : String) (bucket : Bucket)

namespace SynthesisInput

variable (input : SynthesisInput)

def closuresOf (bucket : Bucket) : List (List DeclId) :=
  bucket.members.map fun member => input.lookup.closure member.id

def specificOf (bucket : Bucket) : Inherited := bucket.mostSpecific (input.closuresOf bucket)

def keeps (bucket : Bucket) : Bool :=
  originOf bucket (input.specificOf bucket) == .inherited && !input.options.materialize

/-- The fake override that stands for a bucket, under the id `next`. -/
def fakeFor (next : DeclId) (bucket : Bucket) : Declaration :=
  (input.specificOf bucket).declaration.fakeOverride next input.owner
    (input.specificOf bucket).substitution (bucket.members.map (·.id))

/-- What the member that stands for a bucket adds. -/
def standIn (name : String) (next : DeclId) (bucket : Bucket) : Additions :=
  if input.keeps bucket then
    { members := [(name,
      ⟨(input.specificOf bucket).id, originOf bucket (input.specificOf bucket)⟩)] }
  else
    { members := [(name, ⟨next, originOf bucket (input.specificOf bucket)⟩)]
      overridden := bucket.members.map fun member => (next, member.id)
      pending := [input.fakeFor next bucket] }

/-- What an event adds, with the next id. -/
def additions (next : DeclId) : SynthesisEvent → Additions
  | .check name member declared =>
    match input.check declared member with
    | .overridable => { overridden := [(declared.id, member.id)] }
    | .conflict reason =>
      { conflicts := [⟨name, declared.id, member.id, .incompatibleOverride reason⟩] }
    | .unrelated => {}
  | .settle name bucket =>
    match clusters (input.closuresOf bucket) with
    | _ :: other :: others => { conflicts := clashes name bucket (other :: others) }
    | _ => input.standIn name next bucket

theorem bindTo_eq (name : String) (member : Inherited) (progress : Progress)
    (declared : DeclaredMember) :
    input.bindTo name member progress declared =
      progress.add (input.additions progress.next (.check name member declared)) := by
  cases checked : input.check declared member <;>
    simp [bindTo, additions, checked, Progress.add, OverrideSet.pushAll, OverrideSet.recordAll]

theorem push_recordAll (set : OverrideSet) (pairs : List (DeclId × DeclId)) (name : String)
    (member : EffectiveMember) :
    (set.recordAll pairs).push name member = (set.push name member).recordAll pairs := by
  unfold OverrideSet.recordAll
  induction pairs generalizing set with
  | nil => rfl
  | cons pair rest ih => exact (ih _).trans rfl

theorem represent_eq (name : String) (progress : Progress) (bucket : Bucket) :
    input.represent name progress bucket (input.specificOf bucket) =
      progress.add (input.standIn name progress.next bucket) := by
  unfold represent standIn
  change (if input.keeps bucket then _ else _) = _
  split
  · simp [Progress.add, OverrideSet.pushAll, OverrideSet.recordAll]
  · have noted :
        (bucket.members.map (·.id)).foldl (·.recordOverridden progress.next ·) progress.set =
          progress.set.recordAll (bucket.members.map fun member => (progress.next, member.id)) := by
      simp [OverrideSet.recordAll, List.foldl_map]
    change ({ progress with
      set := OverrideSet.push (List.foldl _ _ _) name _
      pending := _
      next := progress.next.next } : Progress) = _
    rw [noted, push_recordAll]
    simp [Progress.add, OverrideSet.pushAll, fakeFor, DeclId.next]

theorem resolveBucket_eq (name : String) (progress : Progress) (bucket : Bucket) :
    input.resolveBucket name progress bucket =
      progress.add (input.additions progress.next (.settle name bucket)) := by
  have settled : input.resolveBucket name progress bucket =
      match clusters (input.closuresOf bucket) with
      | _ :: other :: others =>
        { progress with conflicts := progress.conflicts ++ clashes name bucket (other :: others) }
      | _ => input.represent name progress bucket (input.specificOf bucket) := rfl
  rw [settled]
  match found : clusters (input.closuresOf bucket) with
  | [] => simpa [additions, found] using input.represent_eq name progress bucket
  | [_] => simpa [additions, found] using input.represent_eq name progress bucket
  | _ :: other :: others =>
    simp [additions, found, Progress.add, OverrideSet.pushAll, OverrideSet.recordAll]

/-! ## Runs -/

/-- Whether a declared member has the shape of an inherited one. -/
def bound (member : Inherited) : Bool :=
  input.isBound (input.declaredNamed member.declaration.name) member

def groupEvents (group : String × List Inherited) : List SynthesisEvent :=
  (group.2.flatMap fun member => (input.declaredNamed group.1).map (.check group.1 member)) ++
    (bucketByShape (group.2.filter fun member =>
      !input.isBound (input.declaredNamed group.1) member)).map (.settle group.1)

def events (inherited : List Inherited) : List SynthesisEvent :=
  (groupByName inherited).entries.flatMap input.groupEvents

/-- Events with the next id at each of them. -/
def stamped : DeclId → List SynthesisEvent → List (DeclId × SynthesisEvent)
  | _, [] => []
  | next, event :: rest =>
    (next, event) ::
      stamped ⟨next.number + (input.additions next event).pending.length⟩ rest

def logFrom (next : DeclId) (events : List SynthesisEvent) : List Additions :=
  (input.stamped next events).map fun stamped => input.additions stamped.1 stamped.2

theorem foldl_add_eq (progress : Progress) (events : List SynthesisEvent) :
    events.foldl (fun progress event => progress.add (input.additions progress.next event))
      progress =
      progress.addAll (input.logFrom progress.next events) := by
  induction events generalizing progress with
  | nil => rfl
  | cons event rest ih => exact (ih _).trans rfl

theorem resolveGroup_eq (progress : Progress) (group : String × List Inherited) :
    input.resolveGroup progress group = (input.groupEvents group).foldl
      (fun progress event => progress.add (input.additions progress.next event)) progress := by
  obtain ⟨name, members⟩ := group
  rw [groupEvents, List.foldl_append, List.foldl_map, List.foldl_flatMap]
  have bound : input.bind name (input.declaredNamed name) = fun progress member =>
      ((input.declaredNamed name).map (SynthesisEvent.check name member)).foldl
        (fun progress event => progress.add (input.additions progress.next event)) progress := by
    funext progress member
    rw [List.foldl_map, bind]
    exact congrArg (fun step => List.foldl step progress _)
      (funext fun progress => funext fun declared => input.bindTo_eq name member progress declared)
  have settled : input.resolveBucket name = fun progress bucket =>
      progress.add (input.additions progress.next (.settle name bucket)) := by
    funext progress bucket
    exact input.resolveBucket_eq name progress bucket
  have unfolded : input.resolveGroup progress (name, members) =
      (bucketByShape (members.filter fun member =>
        !input.isBound (input.declaredNamed name) member)).foldl (input.resolveBucket name)
        (members.foldl (input.bind name (input.declaredNamed name)) progress) := rfl
  rw [unfolded, bound, settled]

/-- A run adds what its events add. -/
theorem run_eq (inherited : List Inherited) :
    input.run inherited =
      input.start.addAll (input.logFrom input.store.next (input.events inherited)) := by
  have start : input.start.next = input.store.next := rfl
  rw [← start, ← foldl_add_eq, events, List.foldl_flatMap, run]
  exact congrArg (fun step => List.foldl step input.start _)
    (funext fun progress => funext fun group => input.resolveGroup_eq progress group)

def log (input : SynthesisInput) (inherited : List Inherited) : List Additions :=
  input.logFrom input.store.next (input.events inherited)

theorem pending_run {inherited : List Inherited} :
    (input.run inherited).pending = (input.log inherited).flatMap (·.pending) := by
  have start : input.start.pending = [] := rfl
  rw [run_eq, Progress.pending_addAll, start, List.nil_append, log]

theorem conflicts_run {inherited : List Inherited} :
    (input.run inherited).conflicts = (input.log inherited).flatMap (·.conflicts) := by
  have start : input.start.conflicts = [] := rfl
  rw [run_eq, Progress.conflicts_addAll, start, List.nil_append, log]

theorem groups_run {inherited : List Inherited} : (input.run inherited).set.groups =
    (input.start.set.pushAll ((input.log inherited).flatMap (·.members))).groups := by
  rw [run_eq, Progress.groups_addAll, log]

/-! ## Stamps -/

theorem map_snd_stamped (next : DeclId) (events : List SynthesisEvent) :
    (input.stamped next events).map Prod.snd = events := by
  induction events generalizing next with
  | nil => rfl
  | cons event rest ih => simp [stamped, ih]

theorem le_of_mem_stamped {next : DeclId} {events : List SynthesisEvent}
    {stamp : DeclId × SynthesisEvent} (h : stamp ∈ input.stamped next events) :
    next.number ≤ stamp.1.number := by
  induction events generalizing next with
  | nil => simp [stamped] at h
  | cons event rest ih =>
    rcases List.mem_cons.1 h with rfl | h
    · exact Nat.le_refl _
    · exact Nat.le_trans (Nat.le_add_right _ _) (ih h)

/-- An id that an event uses up is not the next id of a later event. -/
theorem pairwise_stamped (next : DeclId) (events : List SynthesisEvent) :
    (input.stamped next events).Pairwise fun a b =>
      a.1.number + (input.additions a.1 a.2).pending.length ≤ b.1.number := by
  induction events generalizing next with
  | nil => simp [stamped]
  | cons event rest ih =>
    exact List.pairwise_cons.2 ⟨fun stamp h => input.le_of_mem_stamped h, ih _⟩

end SynthesisInput

end ClassSymbols
