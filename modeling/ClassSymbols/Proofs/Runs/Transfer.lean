import ClassSymbols.Proofs.Resolution.Cycles
import ClassSymbols.Proofs.Runs.Correspondence
import ClassSymbols.Proofs.Runs.LazyMembers

/-!
# Questions that are answered again

Let two courses end with questions for classes that correspond, and let what the classes above ask
for be found alike. If the first question is answered then no class above is above itself, and the
records of all of them can be read. So the second question is answered, too, unless the classes
above are too many for one resolution. The answers that are kept in the first course might have been
given one after the other.

## Main definitions

* `Answered` — two such courses, the first of which ends with an answer.

## Main statements

* `Parallel.exists_gives_classMembers` — members can be read if those of the corresponding class
  were.
* `Answered.exists_ok` — the second question is answered.
-/

namespace ClassSymbols

open Relation Store

/-! ## Reading members -/

theorem ClassData.selfType_rename (data : ClassData) (f : DeclId → DeclId) :
    (data.rename f).selfType = data.selfType.rename f := by
  simp [selfType, rename, Ty.ofClass, Ty.withArguments, TypeHead.rename, TypeArgument.invariant]

/-- The members of a renamed class are read from the same record in the renamed context. -/
theorem ClassData.exists_deferred_of_unread_rename {data data' : ClassData} {f : DeclId → DeclId}
    {reading : LazyMembers} (same : data'.unread = data.unread.rename f)
    (deferred : data.members = .deferred reading) :
    ∃ loaded, data'.members = .deferred
      { record := reading.record, context := reading.context.rename f, loaded } := by
  have members : data'.members.unread = data.members.unread.rename f :=
    congrArg ClassData.members same
  rw [deferred] at members
  have members : data'.members.unread =
      (ClassMembers.deferred ⟨reading.record, reading.context.rename f, none⟩).unread := members
  exact ClassMembers.exists_deferred_of_unread_eq members

theorem steps_act {w : Workspace}
    (keyed : ∀ {id declaration}, w.store.get? id = some declaration → declaration.id = id)
    (table : SymbolTable) (action : Action) :
    ReflTransGen (Store.Step fun _ => True) w.store (w.act table action).store := by
  cases action with
  | resolve target parent =>
    obtain ⟨r, given⟩ :=
      w.exists_gives_after (EffectiveM.onStore (resolveInside table target parent))
    obtain ⟨store, resolved, e⟩ := gives_onStore_iff.1 given
    rw [Workspace.act, e]
    rcases gives_reading_bind_iff.1 resolved with ⟨_, -, -, rfl⟩ | ⟨chain, leads, resolved⟩
    · exact .refl
    · have stored := (ownershipChain_eq_ok_iff.1 leads).1.stored keyed
      exact .single (.inside table target chain r trivial stored resolved)
  | ask query =>
    obtain ⟨r, given⟩ := w.exists_gives_after query.ask
    exact .single (.ask query w.effective (w.act table (.ask query)).effective r given)

theorem Course.Begins.traced {course : Course} (h : course.Begins) (actions : List Action) :
    (course.after actions).store.Traced := by
  have start : course.start.store.Traced :=
    { toAnchored := h.recorded.anchored
      transcribed := h.recorded.transcribed
      deferred := fun stored _ hc =>
        let ⟨reading, hr, _⟩ := h.described.members ⟨_, stored, hc⟩
        ⟨reading, hr⟩ }
  have steps :
      ReflTransGen (Store.Step fun _ => True) course.start.store (course.after actions).store := by
    induction actions using List.reverseRecOn with
    | nil => exact .refl
    | append_singleton before action ih =>
      rw [after_concat]
      exact ih.trans (steps_act (h.rooted before).keyed course.table action)
  exact (start.of_steps steps).1

namespace Parallel

variable {A B : Course} {choice : DeclId → DeclId → Prop} (h : Parallel A B choice)
  {f : DeclId → DeclId} (renames : ∀ {x y}, Corresponds A B choice x y → f x = y)
include h renames

/-- The class that a class corresponds to is the renamed class. -/
theorem unread_eq {a a' : DeclId} (same : Corresponds A B choice a a') {data data' : ClassData}
    (isClass : A.finish.store.IsClass a data) (isClass' : B.finish.store.IsClass a' data') :
    data'.unread = data.unread.rename f := by
  obtain ⟨declaration, stored, hc⟩ := isClass
  have twin := (h.agree renames same).1
  rw [stored] at twin
  obtain ⟨declaration', stored', twin⟩ := exists_of_rel_some twin
  obtain ⟨data₁, hc₁, unread⟩ := twin.class?_eq hc
  obtain rfl := isClass'.unique ⟨declaration', stored', hc₁⟩
  exact unread

/-- All records of a class can be read again in the class that it corresponds to, once they were
read. -/
theorem exists_reader_eq_ok {a a' : DeclId} {xs : List DeclId} (same : Corresponds A B choice a a')
    (known : A.finish.store.members? a = some xs) {data data' : ClassData} {reading : LazyMembers}
    (isClass : A.finish.store.IsClass a data) (deferred : data.members = .deferred reading)
    {t : Store} (wf : t.WellFormed) (isClass' : t.IsClass a' data')
    (unread : data'.unread = data.unread.rename f) {record : MemberRecord}
    (hrecord : record ∈ reading.record.members) (id : DeclId) :
    ∃ declaration, record.reader ((reading.context.rename f).site t) t id = .ok declaration := by
  have rooted := h.begins.rooted A.actions
  obtain ⟨data₀, isClass₀, known⟩ := members?_eq_some_iff.1 known
  obtain rfl := isClass₀.unique isClass
  obtain ⟨reading₀, deferred₀, inside⟩ := rooted.inside_of_deferred isClass
  obtain rfl := ClassMembers.deferred.inj (deferred₀.symm.trans deferred)
  have owner := inside.owner_eq rooted.keyed
  rw [deferred] at known
  have transcribed := (h.begins.traced A.actions).transcribed isClass deferred known
  have owner' : (reading₀.context.rename f).owner = a' := by
    rw [ScopeContext.rename_owner, owner, renames same]
  have owned {path : String} :
      ∃ found, Site.ownerClass ⟨reading₀.context.rename f, path⟩ t = .ok found :=
    ⟨_, (Site.ownerClass_eq_ok_iff wf).2 ⟨owner'.symm, isClass'⟩⟩
  obtain ⟨member, -, base, path, declaration, wf', before, -, made⟩ :=
    exists_mem_of_forall₂_left transcribed hrecord
  -- The type of an instance is the same up to the ids, which is all that a constructor reads of its
  -- class.
  have self (data₁ : ClassData) (isClass₁ : base.IsClass reading₀.context.owner data₁) :
      ∃ data₂, t.IsClass (f reading₀.context.owner) data₂ ∧
        data₂.selfType = data₁.selfType.rename f := by
    obtain ⟨data₂, isClass₂, same₂⟩ := before.isClass isClass₁
    rw [owner] at isClass₂ ⊢
    obtain rfl := isClass₂.unique isClass
    refine ⟨data', (renames same).symm ▸ isClass', ?_⟩
    have type : data'.selfType = (data₂.unread.rename f).selfType :=
    (congrArg ClassData.selfType unread :)
    rw [type, ClassData.selfType_rename, same₂]
    rfl
  have again :
    record.reader ⟨reading₀.context.rename f, (reading₀.context.rename f).path t⟩ t (f member) =
      .ok (declaration.unread.rename f) := record.reader_rename wf' wf self made
  exact MemberRecord.exists_reader_eq_ok owned again

/-- The members of a class can be read if those of the class that it corresponds to are known. -/
theorem exists_gives_classMembers {a a' : DeclId} {xs : List DeclId}
    (same : Corresponds A B choice a a') (known : A.finish.store.members? a = some xs) {t : Store}
    (wf : t.WellFormed) {data' last : ClassData} (isClass' : t.IsClass a' data')
    (at_last : B.finish.store.IsClass a' last) (stays : data'.unread = last.unread) :
    ∃ members t', Gives (classMembers a') t (.ok members) t' := by
  obtain ⟨data, isClass, -⟩ := members?_eq_some_iff.1 known
  obtain ⟨reading, deferred, -⟩ := (h.begins.rooted A.actions).inside_of_deferred isClass
  have unread : data'.unread = data.unread.rename f :=
    stays.trans (h.unread_eq renames same isClass at_last)
  obtain ⟨loaded, deferred'⟩ := ClassData.exists_deferred_of_unread_rename unread deferred
  cases known' : t.members? a' with
  | some members => exact ⟨members, t, gives_classMembers_of_known known'⟩
  | none =>
    obtain ⟨r, t', asked⟩ := exists_gives (classMembers a') t
    have reads := (isClass'.gives_classMembers_iff deferred' known').1 asked
    obtain ⟨declaration', stored', -⟩ := id isClass'
    rcases gives_loadMembers_cases (wf.allocated stored') reads with ⟨ds, rfl, -, -⟩ |
      ⟨e, m, rfl, unreadable, -, -⟩
    · exact ⟨_, t', asked⟩
    · have readable (read : Reader)
        (hread : read ∈ ((reading.context.rename f).site t).readers t reading.record)
          (other : DeclId) : ∃ declaration, read other = .ok declaration := by
        rw [Site.readers_eq] at hread
        obtain ⟨record, hrecord, rfl⟩ := List.mem_map.1 hread
        exact h.exists_reader_eq_ok renames same known isClass deferred wf isClass' unread hrecord
          other
      obtain ⟨ds, read⟩ := exists_readAll_eq_ok readable t.next.number
      cases unreadable.symm.trans read

end Parallel

/-! ## Resolving again -/

/-- Two courses in which what the classes above one ask for is found alike. The first one ends with
a result of this class, and the second one with a question for the class that it corresponds to. -/
structure Answered (A B : Course) (choice : DeclId → DeclId → Prop) (log log' : List Computation)
    (f : DeclId → DeclId) (actions : List Action) (id id' : DeclId) : Prop where
  parallel : Parallel A B choice
  accord : Accord (Corresponds A B choice) A.Finds B.Finds A.start B.start log log' A.finish
    B.finish id f
  start : ∃ c ∈ log, c.owner = id
  pair : Corresponds A B choice id id'
  asked : B.actions = actions ++ [.ask (.synthesis id')]

/-- Whether a class corresponds to one above another class, with fewer classes above than there is
room for and above those that are being resolved. -/
def Expected (A B : Course) (choice : DeclId → DeclId → Prop) (id : DeclId) (room : Nat)
    (visiting : List DeclId) (a' : DeclId) : Prop :=
  ∃ a, Corresponds A B choice a a' ∧ ReflTransGen (A.finish.store.Uses A.Finds) id a ∧
    (∀ path, List.IsChain (A.finish.store.Uses A.Finds) (a :: path) → path.length < room) ∧
    ∀ x' ∈ visiting, ∃ x, Corresponds A B choice x x' ∧ TransGen (A.finish.store.Uses A.Finds) x a

namespace Answered

variable {A B : Course} {choice : DeclId → DeclId → Prop} {log log' : List Computation}
  {f : DeclId → DeclId} {actions : List Action} {id id' : DeclId}
  (h : Answered A B choice log log' f actions id id')
include h

/-- What is found for a supertype of a class without a result is expected. -/
theorem expected_of_found {room : Nat} {visiting : List DeclId} {a' owner : DeclId}
    {u t : Workspace} {data' : ClassData} {supertype' : Ty}
    (expected : Expected A B choice id (room + 1) visiting a') (first : (B.after actions).LeadsTo u)
    (between : u.LeadsTo t) (last : t.LeadsTo B.finish) (isClass' : u.store.IsClass a' data')
    (miss : u.effective.cache.get? (a', data'.supertypes) = none)
    (hs' : supertype' ∈ data'.supertypes)
    (found : supertype'.classId?.bind t.store.findClass? = some owner) :
    Expected A B choice id room (a' :: visiting) owner := by
  obtain ⟨a, pair, above, short, busy⟩ := expected
  obtain ⟨c, hc, rfl, -⟩ := h.accord.exists_result h.start h.pair above
  obtain ⟨data, isClass, -⟩ := h.accord.run.facts.exists_isClass hc
  obtain ⟨later, at_last, supertypes⟩ := h.accord.exists_isClass pair isClass
  rw [← (between.trans last).store.supertypes_eq isClass' at_last, supertypes] at hs'
  obtain ⟨supertype, hs, rfl⟩ := List.mem_map.1 hs'
  obtain ⟨k, named, found⟩ := Option.bind_eq_some_iff.1 found
  rw [Ty.classId?_rename] at named
  obtain ⟨b, b', finds, finds', related⟩ := h.accord.alike above pair (.supertype isClass hs named)
  have unresolved : (B.after actions).result? a' = none := by
    refine Option.eq_none_iff_forall_ne_some.2 fun result known => ?_
    have known := first.result?_eq known
    obtain ⟨declaration', stored', hc'⟩ := isClass'
    simp [Workspace.result?, stored', hc', miss] at known
  rw [h.parallel.begins'.findClass?_of_finds h.asked unresolved finds' (first.trans between) last]
    at found
  subst found
  cases related with
  | @some b _ pair' =>
    have uses : A.finish.store.Uses A.Finds c.owner b :=
      ⟨data, isClass, supertype, hs, k, named, finds⟩
    refine ⟨b, pair', above.tail uses, fun path chain => ?_, fun x' hx' => ?_⟩
    · exact Nat.lt_of_succ_lt_succ (short (b :: path) (.cons_cons uses chain))
    · rcases List.mem_cons.1 hx' with rfl | hx'
      · exact ⟨c.owner, pair, .single uses⟩
      · obtain ⟨x, pair'', below⟩ := busy x' hx'
        exact ⟨x, pair'', below.tail uses⟩

/-- An expected class is not being resolved. -/
theorem not_mem_of_expected {room : Nat} {visiting : List DeclId} {a' : DeclId}
    (expected : Expected A B choice id room visiting a') : a' ∉ visiting := by
  obtain ⟨a, pair, above, -, busy⟩ := expected
  intro hv
  obtain ⟨x, pair', cycle⟩ := busy a' hv
  obtain rfl := h.parallel.biUnique_corresponds.1 pair pair'
  exact h.accord.not_uses_self h.start h.pair above cycle

/-- A result of an expected class can be computed once its supertypes have results. -/
theorem exists_gives_computeFrom {room : Nat} {visiting : List DeclId} {a' : DeclId}
    {u v : Workspace} {data' : ClassData} {members : List SupertypeMembers}
    {log₀ : List Computation} (expected : Expected A B choice id room visiting a')
    (isClass' : u.store.IsClass a' data') (later : u.LeadsTo v) (last : u.LeadsTo B.finish)
    (history : History True B.start log₀ v)
    (offered : ∀ m ∈ members, ∃ c ∈ log₀,
      c.owner = m.owner ∧ c.synthesis.set.memberIds = m.members) :
    ∃ result w, Gives (computeFrom a' data' members) v (.ok result) w := by
  obtain ⟨a, pair, above, -, -⟩ := expected
  obtain ⟨c, hc, rfl, -⟩ := h.accord.exists_result h.start h.pair above
  have fresh := h.accord.run'.fresh
  have facts := history.facts fresh
  obtain ⟨data₁, isClass₁, same₁⟩ := later.store.isClass isClass'
  obtain ⟨data₂, isClass₂, same₂⟩ := last.store.isClass isClass'
  obtain ⟨declared, store, read⟩ :=
    h.parallel.exists_gives_classMembers (fun same => h.accord.takes (.pair same)) pair
    (h.accord.run.facts.listed hc) facts.sound.toWellFormed isClass₁ isClass₂
      (same₁.trans same₂.symm)
  obtain ⟨-, evolves, known⟩ := classMembers_evolves facts.sound read
  refine Workspace.exists_gives_computeFrom data' read (fun x hx => ?_) fun m hm x hx => ?_
  · have described := (history.read read).described fresh h.accord.described'
    obtain ⟨declaration, stored⟩ := described.exists_get?_of_listed (known declared rfl) hx
    rw [stored]
    rfl
  · obtain ⟨d, hd, -, same⟩ := offered m hm
    obtain ⟨home, hh, has, -⟩ := history.exists_home fresh d hd x (same ▸ hx)
    obtain ⟨declaration, stored⟩ := facts.exists_stored hh has
    obtain ⟨declaration', stored', -⟩ := evolves.kept stored
    rw [stored']
    rfl

end Answered

/-- What a resolution of a class at the end of the second course leaves, and that it succeeds if the
class is expected. -/
def Succeeds (A B : Course) (choice : DeclId → DeclId → Prop) (actions : List Action) (id : DeclId)
    (room : Nat) (visiting : List DeclId) (u : Workspace) (a' : DeclId)
    (r : Except SymbolError OverrideSynthesis) (u' : Workspace) :
    Prop :=
  Resolves True B.start visiting u a' r u' ∧
    ∀ log₀, History True B.start log₀ u → (B.after actions).LeadsTo u →
    u'.LeadsTo B.finish → (∃ data', u.store.IsClass a' data') →
      Expected A B choice id room visiting a' →
    ∃ result, r = .ok result

/-- What a resolution of supertypes leaves, and that it succeeds if all that is found for them is
expected. -/
def SucceedsAll (A B : Course) (choice : DeclId → DeclId → Prop) (actions : List Action)
    (id : DeclId) (room : Nat) (visiting : List DeclId) (u : Workspace) (supertypes : List Ty)
    (r : Except SymbolError (List SupertypeMembers)) (u' : Workspace) : Prop :=
  ResolvesAll True B.start visiting u supertypes r u' ∧ ∀ log₀, History True B.start log₀ u →
    (B.after actions).LeadsTo u → u'.LeadsTo B.finish →
    (∀ t, u.LeadsTo t → t.LeadsTo B.finish → ∀ supertype ∈ supertypes, ∀ owner,
      supertype.classId?.bind t.store.findClass? = some owner →
      Expected A B choice id room visiting owner) →
    ∃ members, r = .ok members

namespace Answered

variable {A B : Course} {choice : DeclId → DeclId → Prop} {log log' : List Computation}
  {f : DeclId → DeclId} {actions : List Action} {id id' : DeclId}
  (h : Answered A B choice log log' f actions id id')
include h

/-- Resolutions at the end of the second course succeed. -/
theorem succeedsRule :
    BoundedRule (Succeeds A B choice actions id) (SucceedsAll A B choice actions id) := by
  have fresh := h.accord.run'.fresh
  have rule : ResolutionRule (Resolves True B.start) (ResolvesAll True B.start) :=
    resolutionRule fresh
  have indexed {u : Workspace} {log₀ : List Computation} (history : History True B.start log₀ u)
    {supertype : Ty}
      {owner : DeclId} (search : supertype.classId?.bind u.store.findClass? = some owner) :
      ∃ data', u.store.IsClass owner data' := by
    obtain ⟨k, -, found⟩ := Option.bind_eq_some_iff.1 search
    exact (history.described fresh h.accord.described').indexed k owner found
  constructor
  case refused =>
    intro room visiting u a' e asked
    refine ⟨rule.failed, fun _ _ _ _ ⟨data', isClass'⟩ expected => ?_⟩
    exact absurd (request_eq_error isClass' asked).1 (h.not_mem_of_expected expected)
  case kept =>
    intro room visiting u a' data' result isClass' known
    exact ⟨rule.kept isClass' known, fun _ _ _ _ _ _ => ⟨result, rfl⟩⟩
  case full =>
    intro visiting u a' data' reason isClass' miss free
    refine ⟨rule.failed, fun _ _ _ _ _ ⟨a, _, _, short, _⟩ => ?_⟩
    exact absurd (short [] (.singleton a)) (Nat.lt_irrefl 0)
  case blocked =>
    intro room visiting u a' data' e u' isClass' miss free supers
    refine ⟨rule.blocked isClass' miss free supers.1, fun log₀ history first last _ expected => ?_⟩
    obtain ⟨members, failed⟩ :=
      supers.2 log₀ history first last fun t between later supertype hs owner found =>
      h.expected_of_found expected first between later isClass' miss hs found
    cases failed
  case computed =>
    intro room visiting u a' data' members v r u' isClass' miss free supers made
    have resolves := rule.computed isClass' miss free supers.1 made
    refine ⟨resolves, fun log₀ history _ last _ expected => ?_⟩
    obtain ⟨log₁, continues, resolved⟩ := supers.1 log₀ history
    obtain ⟨-, -, -, offered⟩ := resolved members rfl
    obtain ⟨_, later, -⟩ := resolves log₀ history
    obtain ⟨result, w, succeeds⟩ := h.exists_gives_computeFrom expected isClass' continues.later
      (later.later.trans last) continues.history offered
    exact ⟨result, (made.unique succeeds).1⟩
  case none => exact ⟨rule.none, fun _ _ _ _ _ => ⟨[], rfl⟩⟩
  case skipped =>
    intro room visiting u supertype rest r u' search others
    refine ⟨rule.skipped search others.1, fun log₀ history first last expected => ?_⟩
    exact others.2 log₀ history first last fun t between later other ho =>
      expected t between later other (List.mem_cons_of_mem _ ho)
  case stopped =>
    intro room visiting u supertype rest owner e u' search failed
    refine ⟨rule.stopped search failed.1, fun log₀ history first last expected => ?_⟩
    obtain ⟨_, continues, -⟩ := failed.1 log₀ history
    obtain ⟨result, contra⟩ := failed.2 log₀ history first last (indexed history search)
      (expected u (.refl u) (continues.later.trans last) supertype List.mem_cons_self owner search)
    cases contra
  case halted =>
    intro room visiting u supertype rest owner result v e u' search resolved failed
    refine ⟨rule.halted search resolved.1 failed.1, fun log₀ history first last expected => ?_⟩
    obtain ⟨log₁, continues, -⟩ := resolved.1 log₀ history
    obtain ⟨members, contra⟩ := failed.2 log₁ continues.history (first.trans continues.later) last
      fun t between later other ho =>
        expected t (continues.later.trans between) later other (List.mem_cons_of_mem _ ho)
    cases contra
  case found =>
    intro room visiting u supertype rest owner result v members u' search resolved others
    exact ⟨rule.found search resolved.1 others.1, fun _ _ _ _ _ => ⟨_, rfl⟩⟩

/-- The second question is answered if the class that it is about is there, and if no more classes
are above the class of the first one than a resolution has room for. -/
theorem exists_ok (known : ∃ declaration, (B.after actions).store.get? id' = some declaration)
    (short : ∀ path, List.IsChain (A.finish.store.Uses A.Finds) (id :: path) →
      (id :: path).length ≤ Limits.ownershipDepth) :
    ∃ result, effectiveSynthesis id' (B.after actions) = .ok result B.finish := by
  have begins := h.parallel.begins'
  obtain ⟨log₀, history, -⟩ := begins.exists_logs actions
  have later : (B.after actions).LeadsTo B.finish := by
    have later := begins.leadsTo actions [.ask (.synthesis id')]
    rwa [← h.asked] at later
  obtain ⟨r, w, gives⟩ := exists_gives (effectiveSynthesis id') (B.after actions)
  obtain rfl := Course.finish_eq_of_gives h.asked gives
  have isClass' : ∃ data', (B.after actions).store.IsClass id' data' := by
    obtain ⟨c, hc, rfl⟩ := h.start
    obtain ⟨data, isClass, -⟩ := h.accord.run.facts.exists_isClass hc
    obtain ⟨last, ⟨declaration', stored', hc'⟩, -⟩ := h.accord.exists_isClass h.pair isClass
    obtain ⟨declaration, stored⟩ := known
    obtain ⟨_, stored'', same⟩ := later.store.kept stored
    obtain rfl := Option.some.inj (stored'.symm.trans stored'')
    obtain ⟨data', hc, -⟩ := Declaration.exists_class?_of_unread_eq same.symm hc'
    exact ⟨data', declaration, stored, hc⟩
  obtain ⟨-, succeeds⟩ := h.succeedsRule.resolveWithin gives
  obtain ⟨result, rfl⟩ := succeeds log₀ history (.refl _) (.refl _) isClass'
    ⟨id, h.pair, .refl, fun path chain => Nat.lt_of_succ_le (short path chain),
      fun _ hv => by cases hv⟩
  exact ⟨result, gives_ok_iff.1 gives⟩

end Answered

end ClassSymbols
