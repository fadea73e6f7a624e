import ClassSymbols.Proofs.Ascent.Alongside

/-!
# The steps of an ascent

A class that can be relied on is computed with the same result on the stored declarations and with
the table: the members that it inherits are alike, and they are settled alike. Other classes may be
computed in between. They take nothing but ids.

## Main statements

* `Alongside.settlesAlike` — inherited members are settled alike.
* `Alongside.climb`, `Alongside.skip` — one step.
* `exists_alongside` — all steps.
-/

namespace ClassSymbols

open Relation

namespace SynthesisInput

/-- A bucket that is not joined is reported as a clash. -/
theorem exists_clash {input : SynthesisInput} {inherited : List Inherited} {name : String}
    {bucket : Bucket} (settles : .settle name bucket ∈ input.events inherited)
    (split : ¬bucket.Joined input.lookup) :
    ∃ conflict ∈ (input.outcome inherited).conflicts,
      conflict.kind = .inheritedClash ∧ conflict.name = name := by
  obtain ⟨i, heads⟩ : ∃ i, bucket.Heads input.lookup i := by
    simpa using mt Bucket.joined_iff.2 split
  obtain ⟨head, hh⟩ := heads.getElem?
  obtain ⟨next, hs⟩ := mem_stamped_iff.1 settles
  exact ⟨_, mem_conflicts_run_iff.2 (.inr ⟨next, name, bucket, hs, i, head, heads, hh, rfl⟩), rfl,
    rfl⟩

end SynthesisInput

def Workspace.computation (w : Workspace) (id : DeclId) (supertypes : List Ty)
    (declared : List DeclId) (members : List SupertypeMembers) (synthesis : OverrideSynthesis)
    (next : DeclId) : Computation where
  start := w
  before := w
  owner := id
  supertypes
  owners := supertypes.map fun supertype => supertype.classId?.bind w.store.findClass?
  declared
  members
  synthesis
  after := { w.store with next }

namespace Alongside

variable {store : Store} {options : SynthesisOptions} {last ascent : Ascent}
  {done all : List DeclId} {log : List Computation} {w : Workspace} {id : DeclId} {data : ClassData}
  (h : Alongside store options last done ascent log w) (ground : store.Ground)
  (isClass : store.IsClass id data) (new : id ∉ done)
  (onward : (ascent.climb options id).LeadsTo last)
include h ground isClass

/-! ### Other classes -/

include new onward in
/-- A class that cannot be relied on takes at most some ids. -/
theorem skip (unreliable : ¬last.Reliable id) :
    ∃ w', Alongside store options last (id :: done) (ascent.climb options id) log w' := by
  obtain ⟨declared, known⟩ := ground.eager.complete id data isClass
  have known := h.evolves.listed (Store.members?_eq_some_iff.2 ⟨data, isClass, known⟩)
  obtain ⟨climbed, step⟩ := h.toClimbed.climb options isClass new
  have apart {c : Computation} (hc : c ∈ log) : c.owner ∈ done :=
    ((h.owners c.owner).2 ⟨c, hc, rfl⟩).1
  have owners (other : DeclId) : other ∈ id :: done ∧ last.Reliable other ↔
      ∃ c ∈ log, c.owner = other := by
    rw [← h.owners other, List.mem_cons]
    refine and_congr_left fun reliable => or_iff_right ?_
    rintro rfl
    exact unreliable reliable
  have results :
      ∀ c ∈ log, (ascent.climb options id).results.get? c.owner = some c.synthesis.handed :=
    fun c hc => step.results (h.results c hc)
  have le : w.store.next.number ≤ (ascent.climb options id).store.next.number :=
    h.next ▸ step.store.next_le
  exact ⟨{ w with store := w.store.receive (ascent.climb options id).store.next [] },
    { toClimbed := climbed
      history := h.history.load trivial (Store.batch_nil le)
      unread := h.unread.receive (by simp)
      next := (Store.next_receive _ _ _).symm
      later := onward
      owners
      results
      stored := fun c hc settled fake hf => h.stored_of_leadsTo ground step hc settled hf
      traced := h.traced }⟩

/-! ### Classes that can be relied on -/

/-- The class is stored in the ascent, with its supertypes. -/
theorem exists_isClass :
    (∃ data', ascent.store.IsClass id data' ∧ data'.supertypes = data.supertypes) ∧
      ∃ data', w.store.IsClass id data' ∧ data'.supertypes = data.supertypes := by
  obtain ⟨data₁, isClass₁, same₁⟩ := h.evolves.isClass isClass
  obtain ⟨data₂, isClass₂, same₂⟩ := (h.alternatives ground).evolves.isClass isClass
  exact ⟨⟨data₁, isClass₁, ClassData.supertypes_eq same₁⟩, data₂, isClass₂,
    ClassData.supertypes_eq same₂⟩

variable (final : Climbed store all last) (reliable : last.Reliable id)
  (parents : ∀ parent, store.Parent id parent → parent ∈ done)

section Reliable

include final reliable parents

omit isClass in
theorem exists_result {parent : DeclId} (step : store.Parent id parent) :
    ∃ c ∈ log, c.owner = parent := by
  refine (h.owners parent).1 ⟨parents parent step, reliable.above (.single ?_)⟩
  rwa [final.parent_eq ground.sound]

/-- What the supertypes offer comes from results of classes above. -/
theorem exists_of_mem_supertypesOf {m : SupertypeMembers} (hm : m ∈ ascent.supertypesOf id) :
    ∃ c ∈ log, c.owner = m.owner ∧ c.synthesis.set.memberIds = m.members ∧
      store.Parent id c.owner := by
  obtain ⟨⟨data', isClass', same⟩, -⟩ := h.exists_isClass ground isClass
  obtain ⟨hs, found, result, known, members⟩ := Ascent.exists_of_mem_supertypesOf isClass' hm
  rw [(h.bind_findClass?_eq ground _).1] at found
  have step : store.Parent id m.owner := ⟨data, isClass, m.supertype, same ▸ hs, found⟩
  obtain ⟨c, hc, owner⟩ := h.exists_result ground final reliable parents step
  have known' := h.results c hc
  rw [owner, known, Option.some.injEq] at known'
  rw [known', OverrideSynthesis.set_handed] at members
  exact ⟨c, hc, owner, members, owner ▸ step⟩

theorem passed_of_offered {m : SupertypeMembers} (hm : m ∈ ascent.supertypesOf id) {x : DeclId}
    (hx : x ∈ m.members) : Passed store log id x := by
  obtain ⟨c, hc, -, members, step⟩ :=
    h.exists_of_mem_supertypesOf ground isClass final reliable parents hm
  exact h.passed_of_mem ground hc (.single step) (members ▸ hx)

section Run

variable {declared : List DeclId} {declarations : List Declaration} {inherited : List Inherited}
  (reads : SynthesisInput.Reads ⟨ascent.store, options, ascent.store.overriddenLookup, id,
    declarations⟩ declared (ascent.supertypesOf id) inherited)
include reads

theorem passed_of_inherited {member : Inherited} (hm : member ∈ inherited) :
    Passed store log id member.id := by
  obtain ⟨m, hs, listed⟩ := reads.listed hm
  exact h.passed_of_offered ground isClass final reliable parents hs listed

theorem inherits {member : Inherited} (hm : member ∈ inherited) :
    last.Inherits id member.declaration.name member.id := by
  obtain ⟨m, hs, listed⟩ := reads.listed hm
  obtain ⟨c, hc, -, members, step⟩ :=
    h.exists_of_mem_supertypesOf ground isClass final reliable parents hs
  obtain ⟨declaration, stored, same⟩ := h.later.store.kept (reads.get?_eq hm)
  refine ⟨⟨c.owner, c.synthesis.handed, ?_, h.later.results (h.results c hc), ?_⟩, declaration,
    stored, ?_⟩
  · rwa [final.parent_eq ground.sound]
  · rwa [OverrideSynthesis.set_handed, members]
  · exact Declaration.congr_unread Declaration.name_unread same

/-- Inherited members are settled as the table settles them. -/
theorem settlesAlike
    (known : last.results.get? id =
      some (SynthesisInput.outcome ⟨ascent.store, options, ascent.store.overriddenLookup, id,
      declarations⟩ inherited).handed)
    {name : String} {bucket : Bucket}
    (settles : .settle name bucket ∈ SynthesisInput.events
      ⟨ascent.store, options, ascent.store.overriddenLookup, id, declarations⟩ inherited) :
    SettlesAlike (fun x => x) ascent.store.overriddenLookup
      (w.effective.lookup w.store) bucket.ids := by
  obtain ⟨next, hs⟩ : ∃ next, SynthesisInput.Settles _ inherited next name bucket :=
    SynthesisInput.mem_stamped_iff.1 settles
  have inside : ∀ a ∈ bucket.ids, Passed store log id a := by
    intro a ha
    obtain ⟨member, hm, rfl⟩ := List.mem_map.1 ha
    exact h.passed_of_inherited ground isClass final reliable parents reads (hs.mem_inherited hm)
  have traced : ∀ a ∈ bucket.ids, ∃ base,
      ascent.store.overriddenLookup.RestsOn last.Recorded a base := fun a ha =>
    (h.exists_restsOn ground final reliable (inside a ha)).imp fun _ => And.right
  have prunes := h.prunes ground final reliable
  refine SettlesAlike.of_prunes prunes inside traced fun a ha b hb meet => ?_
  by_cases joined : bucket.Joined ascent.store.overriddenLookup
  · obtain ⟨base, rests⟩ := joined.exists_restsOn traced
    exact prunes.pruned_meet (inside a ha) (inside b hb) (rests a ha) (rests b hb) meet
  rcases reliable.grounded id .refl with recorded | enough
  · have rests {a : DeclId} (ha : a ∈ bucket.ids) :
        ascent.store.overriddenLookup.RestsOn last.Recorded a none :=
      (h.restsOn_none ground final reliable recorded (inside a ha)).congr
        (h.successors_eq_of_reaches ground final reliable (inside a ha))
    exact prunes.pruned_meet (inside a ha) (inside b hb) (rests ha) (rests hb) meet
  · -- A clash is found, so members that meet by what results say meet by what is stored.
    obtain ⟨conflict, hc, kind, rfl⟩ := SynthesisInput.exists_clash settles joined
    have inherits {a : DeclId} (ha : a ∈ bucket.ids) : last.Inherits id conflict.name a := by
      obtain ⟨member, hm, rfl⟩ := List.mem_map.1 ha
      rw [← (hs.mem_iff.1 hm).2.1]
      exact h.inherits ground isClass final reliable parents reads (hs.mem_inherited hm)
    have reaches {a c : DeclId} (ha : a ∈ bucket.ids) :
        ascent.store.overriddenLookup.Reaches a c ↔ last.store.overriddenLookup.Reaches a c :=
      FiniteGraph.reaches_congr (h.successors_eq_of_reaches ground final reliable (inside a ha))
    obtain ⟨c, left, right⟩ := meet
    obtain ⟨c, left, right⟩ := enough.genuine _ known conflict
      (by rwa [OverrideSynthesis.conflicts_handed]) kind a b (inherits ha) (inherits hb)
      ⟨c, h.reaches_resultLookup ground final reliable (inside a ha) left,
        h.reaches_resultLookup ground final reliable (inside b hb) right⟩
    exact ⟨c, (reaches ha).2 left, (reaches hb).2 right⟩

end Run

/-- The fake overrides that are stored with the result rest on what the members rest on that they
stand for. -/
theorem traced_of_pending {declared : List DeclId} {synthesis : OverrideSynthesis} {after : Store}
    (ok : synthesizeWith options ascent.store.overriddenLookup id declared (ascent.supertypesOf id)
      ascent.store = .ok synthesis after) {fake : Declaration} (hf : fake ∈ synthesis.pending)
    (stored : last.store.get? fake.id = some fake) : last.Traced fake.id := by
  obtain ⟨declarations, inherited, reads, rfl, rfl⟩ :=
    (synthesizeWith_eq_ok_iff h.sound.toWellFormed).1 ok
  obtain ⟨next, name, bucket, settles, made, rfl⟩ := SynthesisInput.mem_pending_run_iff.1 hf
  change last.Traced next
  have overridden : last.store.overriddenLookup.successors next = bucket.ids := by
    change last.store.overridden next = _
    unfold Store.overridden
    rw [show last.store.get? next = _ from stored]
    exact reads.overridden_fakeFor settles
  have own : last.Recorded next :=
    final.recorded_of_le ground.sound (Nat.le_trans h.evolves.next_le settles.le)
  have rests {a : DeclId} (ha : a ∈ bucket.ids) : ∃ base,
      last.store.overriddenLookup.RestsOn last.Recorded a base ∧
        ascent.store.overriddenLookup.RestsOn last.Recorded a base := by
    obtain ⟨member, hm, rfl⟩ := List.mem_map.1 ha
    exact h.exists_restsOn ground final reliable
      (h.passed_of_inherited ground isClass final reliable parents reads (settles.mem_inherited hm))
  have joined : bucket.Joined ascent.store.overriddenLookup := made.1
  obtain ⟨base, same⟩ := joined.exists_restsOn fun a ha => (rests ha).imp fun _ => And.right
  refine ⟨base, FiniteGraph.RestsOn.of_successors own ?_ fun a ha => ?_⟩
  · rw [overridden]
    exact List.cons_ne_nil _ _
  · rw [overridden] at ha
    obtain ⟨base', last, already⟩ := rests ha
    exact already.unique (same a ha) ▸ last

include new

/-- The computation follows the history. -/
theorem follows {declared : List DeclId} (known : store.members? id = some declared)
    {synthesis : OverrideSynthesis} {next : DeclId}
    (ok : synthesizeWith options (w.effective.lookup w.store) id declared
      (ascent.supertypesOf id) w.store = .ok synthesis { w.store with next }) :
    (w.computation id data.supertypes declared (ascent.supertypesOf id) synthesis next).Follows
      (.initial store options) log where
  run := by
    have kept : w.effective.options = options := (h.facts ground).later.options
    change synthesizeWith w.effective.options _ _ _ _ _ = _
    rw [kept]
    exact ok
  isClass := (h.exists_isClass ground isClass).2
  listed := (h.alternatives ground).evolves.listed known
  new := by
    refine Option.eq_none_iff_forall_ne_some.2 fun result kept => new ?_
    obtain ⟨c, hc, key, -⟩ := (h.facts ground).cached_iff.1 kept
    exact ((h.owners id).2 ⟨c, hc, congrArg Prod.fst key⟩).1
  started := (h.facts ground).later
  resolved := .refl w
  answers := List.forall₂_map_right_iff.2
    (List.forall₂_same.2 fun supertype _ => ⟨w, .refl w, .refl w, rfl⟩)
  matched := by
    obtain ⟨⟨data', isClass', same⟩, -⟩ := h.exists_isClass ground isClass
    have found (supertype : Ty) : supertype.classId?.bind w.store.findClass? =
        supertype.classId?.bind ascent.store.findClass? :=
      (h.bind_findClass?_eq ground supertype).2.trans (h.bind_findClass?_eq ground supertype).1.symm
    have offers := Ascent.map_supertypesOf isClass' fun supertype hs parent found => ?_
    · refine offers.trans (Eq.trans ?_ (filterMap_zip_of_forall₂ (List.forall₂_map_right_iff.2
        (List.forall₂_same.2 fun _ _ => rfl))).symm)
      simp only [same, found]
      rfl
    · rw [(h.bind_findClass?_eq ground supertype).1] at found
      have step : store.Parent id parent := ⟨data, isClass, supertype, same ▸ hs, found⟩
      obtain ⟨c, hc, rfl⟩ := h.exists_result ground final reliable parents step
      exact Option.isSome_of_mem (h.results c hc)
  offered m hm := by
    obtain ⟨c, hc, owner, members, -⟩ :=
      h.exists_of_mem_supertypesOf ground isClass final reliable parents hm
    exact ⟨c, hc, owner, members⟩

include onward

omit new in
/-- The class is computed with the same result in the ascent and after the history. -/
theorem exists_synthesizeWith_of_parents (natural : options.relation.Natural) :
    ∃ declared synthesis after, store.members? id = some declared ∧
      synthesizeWith options ascent.store.overriddenLookup id declared (ascent.supertypesOf id)
        ascent.store = .ok synthesis after ∧
      synthesizeWith options (w.effective.lookup w.store) id declared
        (ascent.supertypesOf id) w.store =
        .ok synthesis { w.store with next := after.next } := by
  obtain ⟨declared, known⟩ := ground.eager.complete id data isClass
  have known : store.members? id = some declared :=
    Store.members?_eq_some_iff.2 ⟨data, isClass, known⟩
  have own : ∀ x ∈ declared, ascent.store.Alike w.store x :=
    fun x hx => h.alike_of_listed ground known hx
  have passed {m : SupertypeMembers} (hm : m ∈ ascent.supertypesOf id) {x : DeclId}
    (hx : x ∈ m.members) :
      Passed store log id x := h.passed_of_offered ground isClass final reliable parents hm hx
  obtain ⟨synthesis, after, ok⟩ := exists_synthesizeWith options ascent.store.overriddenLookup id
    (fun x hx => h.isSome_of_listed ground known hx)
    fun m hm x hx => h.isSome_of_passed ground final reliable (passed hm hx)
  refine ⟨declared, synthesis, after, known, ok, ?_⟩
  refine synthesizeWith_eq_of_alike natural h.sound.toWellFormed (h.facts ground).sound.toWellFormed
    h.next.symm own (fun m hm x hx => h.alike_of_passed ground final reliable (passed hm hx))
    (h.findsTwins ground) ok fun declarations inherited reads name bucket settles => ?_
  refine h.settlesAlike ground isClass final reliable parents reads ?_ settles
  have result := (synthesizeWith_eq_ok_iff h.sound.toWellFormed).2
    ⟨declarations, inherited, reads, rfl, rfl⟩
  refine onward.results ?_
  rw [Ascent.climb_eq (h.evolves.listed known) result, OrderedMap.get?_insert, if_pos rfl]
  rfl

/-- With one more class, the ascent and the history have the same results. -/
theorem climb (natural : options.relation.Natural) :
    ∃ log' w', Alongside store options last (id :: done) (ascent.climb options id) log' w' := by
  obtain ⟨declared, synthesis, after, known, ok, ok'⟩ :=
    h.exists_synthesizeWith_of_parents ground isClass onward final reliable parents natural
  have follows := h.follows ground isClass new final reliable parents known ok'
  let c := w.computation id data.supertypes declared (ascent.supertypesOf id) synthesis after.next
  have batch : ascent.store.Batch after.next synthesis.stored :=
    (ready_of_synthesizeWith h.sound.toWellFormed ok).batch.stored
  have e := Ascent.climb_eq (h.evolves.listed known) ok
  obtain ⟨climbed, step⟩ := h.toClimbed.climb options isClass new
  have result : (ascent.climb options id).results.get? id = some synthesis.handed := by
    rw [e, OrderedMap.get?_insert, if_pos rfl]
  have stored (left : synthesis.handed.pending = []) {fake : Declaration}
    (hf : fake ∈ synthesis.pending) :
      (ascent.climb options id).store.get? fake.id = some fake := by
    rw [e]
    exact batch.get?_receive_of_mem ((synthesis.stored_eq_of_handed left).symm ▸ hf)
  have plain {fake : Declaration} (hf : fake ∈ synthesis.pending) : fake.class? = none :=
    ((ready_of_synthesizeWith h.sound.toWellFormed ok).made fake hf).1
  exact ⟨c :: log, c.finish,
    { toClimbed := climbed
      history := h.history.compute follows
      unread := by
        rw [follows.store_finish (h.facts ground).sound]
        exact h.unread.receive fun _ => plain
      next := by
        rw [follows.store_finish (h.facts ground).sound, e, Store.next_receive, Store.next_receive]
        rfl
      later := onward
      owners := fun other => by
        simp only [List.mem_cons, exists_eq_or_imp, ← h.owners other]
        constructor
        · rintro ⟨rfl | listed, reliable⟩
          · exact .inl rfl
          · exact .inr ⟨listed, reliable⟩
        · rintro (rfl | ⟨listed, reliable⟩)
          · exact ⟨.inl rfl, reliable⟩
          · exact ⟨.inr listed, reliable⟩
      results := by
        rintro c' (_ | ⟨_, hc⟩)
        · exact result
        · exact step.results (h.results c' hc)
      stored := by
        rintro c' (_ | ⟨_, hc⟩) left fake hf
        · exact stored left hf
        · exact h.stored_of_leadsTo ground step hc left hf
      traced := by
        rintro c' (_ | ⟨_, hc⟩) left fake hf
        · exact h.traced_of_pending ground isClass final reliable parents ok hf
            (onward.store.get?_of_class?_eq_none (stored left hf) (plain hf))
        · exact h.traced c' hc left fake hf }⟩

end Reliable

end Alongside

/-! ### All steps -/

/-- An ascent has the results of a history in which the classes that can be relied on are asked for
in that order. -/
theorem exists_alongside {store : Store} {options : SynthesisOptions} {last ascent : Ascent}
    {done all rest : List DeclId} {log : List Computation} {w : Workspace}
    (natural : options.relation.Natural) (ground : store.Ground) (final : Climbed store all last)
    (h : Alongside store options last done ascent log w) (bottomUp : store.BottomUp done rest)
    (reached : ascent.climbAll options rest = last) :
    ∃ log' w', Alongside store options last (rest.reverse ++ done) last log' w' := by
  induction rest generalizing done ascent log w with
  | nil =>
    obtain rfl : ascent = last := reached
    exact ⟨log, w, h⟩
  | cons id rest ih =>
    obtain ⟨new, ⟨data, isClass⟩, parents, later⟩ := bottomUp
    have onward : (ascent.climb options id).LeadsTo last := by
      obtain ⟨climbed, -⟩ := h.toClimbed.climb options isClass new
      exact reached ▸ (climbed.climbAll options later).2
    rw [List.reverse_cons, List.append_assoc]
    by_cases reliable : last.Reliable id
    · obtain ⟨_, _, next⟩ := h.climb ground isClass new onward final reliable parents natural
      exact ih next later reached
    · obtain ⟨_, next⟩ := h.skip ground isClass new onward reliable
      exact ih next later reached

end ClassSymbols
