import ClassSymbols.Proofs.Overrides.StandIns
import ClassSymbols.Proofs.Resolution.Hierarchy

/-!
# Coverage of hierarchies

In a hierarchy without conflicts, no inherited member is lost on the way down. Each step of a
resolution finds a member that stands for what a supertype offers, and the remembered lists lead
back through all steps to the member itself.

## Main definitions

* `Store.Inheritable` — the functions and properties that subclasses inherit.

## Main statements

* `Computation.Follows.exists_standIn` — one step of a resolution.
* `reaches_of_ancestor` — some effective member of a class reaches each member that an ancestor
  declares.
-/

namespace ClassSymbols

namespace Store

/-- Whether a function or property that subclasses inherit is stored under an id. -/
def Inheritable (store : Store) (id : DeclId) : Prop :=
  ∃ declaration, store.get? id = some declaration ∧ declaration.isCallable = true ∧
    declaration.visibility.isInheritable = true

theorem Extends.inheritable {s t : Store} (h : s.Extends t) {id : DeclId}
    (stored : s.Inheritable id) :
    t.Inheritable id := by
  obtain ⟨declaration, stored, callable, inheritable⟩ := stored
  have plain := Declaration.class?_eq_none_of_isCallable callable
  exact ⟨declaration, h.get?_of_class?_eq_none stored plain, callable, inheritable⟩

theorem Inheritable.exists_inheritedAs? {store : Store} {id : DeclId} (h : store.Inheritable id)
    {supertypes : List SupertypeMembers}
    (listed : ∃ supertype ∈ supertypes, id ∈ supertype.members) :
    ∃ member, store.inheritedAs? supertypes id = some member := by
  obtain ⟨declaration, stored, callable, inheritable⟩ := h
  refine Option.ne_none_iff_exists'.1 fun none => ?_
  rcases (Store.inheritedAs?_eq_none_iff stored listed).1 none with h | h <;> simp_all

end Store

/-! ## One step -/

namespace Computation.Follows

variable {c : Computation} {origin : Workspace} {log : List Computation} (h : c.Follows origin log)
  (sound : c.before.store.Sound)
include h sound

/-- Declared members are effective. -/
theorem mem_memberIds_of_declared {id : DeclId} (hd : id ∈ c.declared) :
    id ∈ c.synthesis.set.memberIds := by
  obtain ⟨declarations, inherited, reads, e, -⟩ := h.exists_run sound
  obtain ⟨declaration, hm, ok⟩ := exists_mem_of_forall₂_left (mapM_eq_ok_iff.1 reads.resolved) hd
  have keyed := reads.wellFormed.keyed (Store.resolve_eq_ok_iff.1 ok)
  rw [e]
  exact List.mem_map.2 ⟨_, SynthesisInput.mem_members_run_iff.2 (.inl ⟨declaration, hm, rfl⟩),
    keyed⟩

/-- Without conflicts, some effective member stands for what a supertype offers. -/
theorem exists_standIn {m : SupertypeMembers} (hm : m ∈ c.members) {id : DeclId}
    (hid : id ∈ m.members) (stored : c.before.store.Inheritable id)
    (clean : c.synthesis.conflicts = [])
    (opened : ∀ d ∈ c.declared, c.synthesis.set.overriddenBy d ≠ [] →
      ∀ declaration, c.before.store.get? d = some declaration →
      declaration.visibility.isInheritable = true) :
    ∃ e ∈ c.synthesis.set.memberIds, (e = id ∨ id ∈ c.synthesis.set.overriddenBy e) ∧
      c.finish.store.Inheritable e := by
  have wider := (h.evolves sound).toExtends
  have effective := @mem_memberIds_of_declared c origin log h sound
  have made := @isCallable_of_mem_pending c origin log h sound
  have received := fun fake => @get?_finish_of_mem_pending c origin log h sound fake
  obtain ⟨declarations, inherited, reads, e, -⟩ := h.exists_run sound
  obtain ⟨member, seen⟩ := stored.exists_inheritedAs? ⟨m, hm, hid⟩
  obtain rfl := sound.toWellFormed.id_eq seen
  rw [e] at clean opened effective received made ⊢
  rcases reads.standIn_cases clean (reads.mem_inherited_iff.2 seen) with
    ⟨d, hd, signed, overrides⟩ | ⟨fake, hf, fake_effective, overrides⟩ | kept
  · obtain ⟨declaration, known, callable⟩ := Store.exists_isCallable_of_signature? signed
    have inheritable := opened d hd (List.ne_nil_of_mem overrides) declaration known
    exact ⟨d, effective hd, .inr overrides,
      wider.inheritable ⟨declaration, known, callable, inheritable⟩⟩
  · exact ⟨fake.id, fake_effective, .inr overrides, fake, received fake hf, made hf⟩
  · exact ⟨member.id, kept, .inl rfl, wider.inheritable stored⟩

end Computation.Follows

/-! ## Coverage -/

section Coverage

variable {loads : Prop} {origin w : Workspace} {log : List Computation} {c : Computation}

/-- A class without conflicts has a member for what a supertype offers, and the member reaches what
that reaches. -/
theorem History.Facts.exists_reaches_of_offered (facts : History.Facts loads origin log w)
    (fresh : origin.Fresh) (still : origin.store.Still w.store) (hc : c ∈ log) {data : ClassData}
    (isClass : origin.store.IsClass c.owner data) (clean : c.synthesis.conflicts = [])
    (opened : ∀ members, origin.store.members? c.owner = some members →
      ∀ d ∈ members, c.synthesis.set.overriddenBy d ≠ [] →
      ∀ declaration, origin.store.get? d = some declaration →
      declaration.visibility.isInheritable = true)
    {m : SupertypeMembers} (hm : m ∈ c.members) {e : DeclId} (he : e ∈ m.members)
    (inheritable : c.before.store.Inheritable e) {member : DeclId}
    (reaches : (w.effective.lookup w.store).Reaches e member) :
    ∃ e ∈ c.synthesis.set.memberIds, (w.effective.lookup w.store).Reaches e member ∧
      c.finish.store.Inheritable e := by
  obtain ⟨sound, _, before, follows, -⟩ := facts.follows c hc
  obtain ⟨members, known⟩ := still.complete _ _ isClass
  have known := Store.members?_eq_some_iff.2 ⟨data, isClass, known⟩
  have grown := (before.facts fresh).later.store
  obtain ⟨e', he', stands, inheritable'⟩ := follows.exists_standIn sound hm he inheritable clean
    fun d hd overrides declaration at_before => by
      rw [facts.declared_eq hc known] at hd
      have old := fresh.sound.listed_allocated known d hd
      rcases grown.fresh at_before with ⟨declaration', at_origin⟩ | new
      · obtain ⟨_, at_before', same⟩ := grown.kept at_origin
        obtain rfl := Option.some.inj (at_before.symm.trans at_before')
        rw [Declaration.congr_unread Declaration.visibility_unread same]
        exact opened members known d hd overrides declaration' at_origin
      · omega
  refine ⟨e', he', ?_, inheritable'⟩
  rcases stands with rfl | overrides
  · exact reaches
  · exact .head (facts.mem_successors hc overrides) reaches

/-- Some effective member of a class reaches each member that an ancestor declares, and can be
inherited itself. -/
theorem History.Facts.exists_reaches (facts : History.Facts loads origin log w)
    (fresh : origin.Fresh) (still : origin.store.Still w.store) {start ancestor : DeclId}
    (clean : ∀ c ∈ log, Relation.ReflTransGen origin.store.Parent start c.owner →
      c.synthesis.conflicts = [])
    (opened : ∀ c ∈ log, Relation.ReflTransGen origin.store.Parent start c.owner →
      ∀ members, origin.store.members? c.owner = some members →
      ∀ d ∈ members, c.synthesis.set.overriddenBy d ≠ [] →
      ∀ declaration, origin.store.get? d = some declaration →
      declaration.visibility.isInheritable = true)
    {members : List DeclId} (listed : origin.store.members? ancestor = some members)
    {member : DeclId} (declared : member ∈ members) (stored : origin.store.Inheritable member)
    {id : DeclId} (above : Relation.TransGen origin.store.Parent id ancestor) :
    ∀ c ∈ log, c.owner = id → Relation.ReflTransGen origin.store.Parent start id →
      ∃ e ∈ c.synthesis.set.memberIds, (w.effective.lookup w.store).Reaches e member ∧
        c.finish.store.Inheritable e := by
  induction above using Relation.TransGen.head_induction_on with
  | single parent =>
    rintro c hc rfl below
    obtain ⟨data, isClass, supertype, hs, found⟩ := parent
    obtain ⟨m, hm, -, rfl⟩ :=
      facts.exists_parent hc fresh still (facts.mem_supertypes hc isClass hs) found
    obtain ⟨c', hc', owner, offered, later⟩ := facts.exists_offered hc fresh hm
    obtain ⟨sound, _, before, follows, -⟩ := facts.follows c' hc'
    have effective := follows.mem_memberIds_of_declared sound
      ((facts.declared_eq hc' (owner ▸ listed)) ▸ declared)
    have grown := (before.facts fresh).later.store
    exact facts.exists_reaches_of_offered fresh still hc isClass (clean c hc below)
      (opened c hc below) hm
      (offered ▸ effective)
      (later.store.inheritable ((follows.evolves sound).inheritable (grown.inheritable stored)))
        (.refl _)
  | head parent above ih =>
    rintro c hc rfl below
    obtain ⟨data, isClass, supertype, hs, found⟩ := parent
    obtain ⟨m, hm, -, rfl⟩ :=
      facts.exists_parent hc fresh still (facts.mem_supertypes hc isClass hs) found
    obtain ⟨c', hc', owner, offered, later⟩ := facts.exists_offered hc fresh hm
    obtain ⟨e, he, reaches, inheritable⟩ :=
      ih c' hc' owner (below.tail ⟨data, isClass, supertype, hs, found⟩)
    exact facts.exists_reaches_of_offered fresh still hc isClass (clean c hc below)
      (opened c hc below) hm
      (offered ▸ he) (later.store.inheritable inheritable) reaches

end Coverage

variable {store : Store} {options : SynthesisOptions} {id : DeclId} {synthesis : OverrideSynthesis}
  {w : Workspace}

/-- If a class and its ancestors have no conflicts, and subclasses inherit what overrides something
in them, then some effective member of the class reaches each member that an ancestor declares and
that subclasses inherit. -/
theorem reaches_of_ancestor (sound : store.Sound) (eager : store.Eager)
    (ok : effectiveSynthesis id (.initial store options) = .ok synthesis w)
    (clean : ∀ h result, Relation.ReflTransGen store.Parent id h → w.result? h = some result →
      result.conflicts = [])
    (opened : ∀ h result, Relation.ReflTransGen store.Parent id h → w.result? h = some result →
      ∀ members, store.members? h = some members →
      ∀ d ∈ members, result.set.overriddenBy d ≠ [] →
      ∀ declaration, store.get? d = some declaration → declaration.visibility.isInheritable = true)
    {ancestor : DeclId} (above : Relation.TransGen store.Parent id ancestor) {members : List DeclId}
    (listed : store.members? ancestor = some members) {member : DeclId}
    (declared : member ∈ members) (inheritable : store.Inheritable member) :
    ∃ e ∈ synthesis.set.memberIds, (w.effective.lookup w.store).Reaches e member := by
  have fresh := Workspace.fresh_initial sound options
  obtain ⟨log, history, -, -, answer⟩ :=
    exists_history fresh (.start : History False _ _ _) (gives_ok_iff.2 ok)
  obtain ⟨c, hc, rfl, rfl⟩ := answer synthesis rfl
  have facts := history.facts fresh
  have result {c : Computation} (hc : c ∈ log) := facts.result?_eq hc
  obtain ⟨e, he, reaches, -⟩ := facts.exists_reaches fresh (history.still fresh eager.complete)
    (fun c hc below => clean c.owner c.result below (result hc))
    (fun c hc below => opened c.owner c.result below (result hc)) listed declared inheritable above
      c hc
    rfl .refl
  exact ⟨e, he, reaches⟩

/-- The function of the topmost of three classes is reached from a member of the lowest one, which
declares a function of its own. -/
theorem reaches_of_three_classes :
    let declarations := [.plainClass ⟨1⟩ "A" [] [⟨4⟩], .plainClass ⟨2⟩ "B" ["A"] [],
      .plainClass ⟨3⟩ "C" ["B"] [⟨5⟩], .plainFunction ⟨4⟩ ⟨1⟩ .nullableAny,
      .plainFunction ⟨5⟩ ⟨3⟩ .nullableAny]
    let store := Store.empty.receive ⟨6⟩ declarations
    ∃ synthesis w, effectiveSynthesis ⟨3⟩ (.initial store {}) = .ok synthesis w ∧
      ∃ e ∈ synthesis.set.memberIds, (w.effective.lookup w.store).Reaches e ⟨4⟩ := by
  intro declarations store
  have computed : (match effectiveSynthesis ⟨3⟩ (.initial store {}) with
      | .ok _ w => w.effective.cache.entries.all fun entry => entry.2.conflicts.isEmpty
      | .error _ _ => false) = true := by decide +kernel
  have sound : store.Sound := Store.sound_receive_empty (by decide) (by decide) (by decide)
  have eager : store.Eager := Store.eager_receive_empty (by decide)
  have opened : ∀ declaration ∈ declarations, declaration.visibility.isInheritable = true := by
    decide
  have below : store.Parent ⟨3⟩ ⟨2⟩ := ⟨_, ⟨_, rfl, rfl⟩, _, List.mem_cons_self, rfl⟩
  have above : store.Parent ⟨2⟩ ⟨1⟩ := ⟨_, ⟨_, rfl, rfl⟩, _, List.mem_cons_self, rfl⟩
  cases ok : effectiveSynthesis ⟨3⟩ (.initial store {}) with
  | error e w => simp [ok] at computed
  | ok synthesis w =>
    rw [ok] at computed
    refine ⟨synthesis, w, rfl,
      reaches_of_ancestor sound eager ok ?_ ?_ (.head below (.single above)) rfl
      List.mem_cons_self ⟨_, rfl, rfl, rfl⟩⟩
    · rintro h result - found
      obtain ⟨key, entry⟩ := Workspace.mem_entries_of_result? found
      exact List.isEmpty_iff.1 (List.all_eq_true.1 computed _ entry)
    · intro h result _ _ members _ d _ _ declaration stored
      exact opened declaration (Store.mem_of_get?_receive_empty stored).1

end ClassSymbols
