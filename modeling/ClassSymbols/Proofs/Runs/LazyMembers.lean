import ClassSymbols.Proofs.Loading.Contexts
import ClassSymbols.Proofs.Runs.Changes

/-!
# Members are read once, all or nothing

The records of a class are read again at every question until all of them can be read. Whether a
record can be read, and why not, depends on the context of the class and on the names of the
declarations around it, and neither changes. So a class whose members cannot be read fails the same
way at every time, and costs ids only. As soon as its members have been read they are stored
together, and stay.

## Main definitions

* `Store.Traced` — stores in which the classes that were read can be traced back to their records.
* `Store.Fills` — what the first successful question for the members of a class stores.

## Main statements

* `MemberRecord.verdict_reader` — whether a record can be read does not depend on the id.
* `Store.Traced.of_steps` — operations keep a store traced.
* `Store.Traced.gives_error`, `Store.Traced.fills` — a question that fails, and the first one that
  succeeds.
* `classMembers_once` — the members of a class that was read, from the first question on.
-/

namespace ClassSymbols

open Relation Store

/-! ## Whether a record can be read -/

section Verdicts

variable {context : ScopeContext} {path path' : String} {base base' : Store} {id id' : DeclId}

theorem Site.verdict_reporting {α β : Type} {site : Site} {symbol : String}
    {x : Except SymbolError α} {y : Except SymbolError β} (same : verdict x = verdict y) :
    verdict (site.reporting symbol x) = verdict (site.reporting symbol y) := by
  cases x with
  | error e =>
    rw [verdict_eq_error_iff.1 (same.symm.trans rfl)]
    rfl
  | ok a =>
    obtain ⟨b, rfl⟩ := verdict_eq_ok_iff.1 (same.symm.trans rfl)
    rfl

theorem Site.verdict_readConstructor {owner owner' : DeclId} {data data' : ClassData}
    (record : ConstructorRecord) :
    verdict (readConstructor ⟨context, path⟩ owner data id record) =
      verdict (readConstructor ⟨context, path⟩ owner' data' id' record) :=
  verdict_reporting (verdict_bind rfl fun _ _ => verdict_bind rfl fun _ _ => rfl)

/-- Whether a record of a member can be read, and why not, does not depend on the id, nor on the
store once it has a class around the member: what is read under two ids is the same if the two are
made one. -/
theorem MemberRecord.verdict_reader
    (owned : verdict (Site.ownerClass ⟨context, path⟩ base) =
      verdict (Site.ownerClass ⟨context, path⟩ base'))
    (record : MemberRecord) : verdict (record.reader ⟨context, path⟩ base id) =
      verdict (record.reader ⟨context, path⟩ base' id') := by
  let one : DeclId → DeclId := fun _ => ⟨0⟩
  have same (read : ScopeContext → DeclId → Except SymbolError Declaration)
      (made : ∀ id, read (context.rename one) ⟨0⟩ =
        (read context id).map (Declaration.rename one)) :
      verdict (read context id) = verdict (read context id') := by
    rw [← verdict_map (read context id) (Declaration.rename one), ← made id, made id', verdict_map]
  cases record with
  | constructor record => exact verdict_bind owned fun _ _ => Site.verdict_readConstructor record
  | function record =>
    exact same (fun context id => Site.readFunction ⟨context, path⟩ id record) fun _ =>
      Site.readFunction_rename record
  | property record =>
    exact same (fun context id => Site.readProperty ⟨context, path⟩ id record) fun _ =>
      Site.readProperty_rename record
  | classifier record =>
    exact same (fun context id => Site.readClass ⟨context, path⟩ id record) fun _ =>
      Site.readClass_rename record

/-- A record that was read as that of a member can be read wherever there is a class around the
member. -/
theorem MemberRecord.exists_reader_eq_ok {record : MemberRecord} {declaration : Declaration}
    (owned : ∃ owner, Site.ownerClass ⟨context, path'⟩ base' = .ok owner)
    (read : record.reader ⟨context, path⟩ base id = .ok declaration) :
    ∃ declaration', record.reader ⟨context, path'⟩ base' id' = .ok declaration' := by
  replace read : record.reader ⟨context, path'⟩ base id = .ok declaration := reader_of_path read
  rw [← verdict_eq_ok_iff]
  have found : verdict (record.reader ⟨context, path'⟩ base id) = .ok () :=
    verdict_eq_ok_iff.2 ⟨_, read⟩
  cases record with
  | constructor record =>
    obtain ⟨owner, owned', -⟩ := Except.bind_eq_ok_iff.1 read
    rw [← found]
    refine (verdict_reader ?_ _).symm
    rw [verdict_eq_ok_iff.2 ⟨owner, owned'⟩, verdict_eq_ok_iff.2 owned]
  | function record =>
    exact (@verdict_reader _ _ base base _ _ rfl (.function record)).symm.trans found
  | property record =>
    exact (@verdict_reader _ _ base base _ _ rfl (.property record)).symm.trans found
  | classifier record =>
    exact (@verdict_reader _ _ base base _ _ rfl (.classifier record)).symm.trans found

end Verdicts

/-- Records can be read one after the other if each of them can be read. -/
theorem exists_readAll_eq_ok {reads : List Reader}
    (steps : ∀ read ∈ reads, ∀ id, ∃ declaration, read id = .ok declaration) (n : Nat) :
    ∃ ds, readAll n reads = .ok ds := by
  induction reads generalizing n with
  | nil => exact ⟨[], rfl⟩
  | cons read reads ih =>
    obtain ⟨declaration, made⟩ := steps read List.mem_cons_self ⟨n⟩
    obtain ⟨ds, others⟩ := ih (fun other ho => steps other (List.mem_cons_of_mem _ ho)) (n + 1)
    exact ⟨declaration :: ds, by simp [readAll, made, others, bind, Except.bind, pure, Except.pure]⟩

/-! ## Traced stores -/

namespace Store

variable {locals : PropertyRecord → Prop} {tables : SymbolTable → Prop} {s t : Store}

/-- Whether the members of classes are read in the contexts inside the classes and, where they are
known, were read from their records, and every class that was read has such members. -/
structure Traced (store : Store) : Prop extends store.Anchored where
  transcribed : store.Transcribed
  deferred : ∀ {id declaration data}, store.get? id = some declaration →
    declaration.origin = .deserialized →
    declaration.class? = some data → ∃ reading, data.members = .deferred reading

namespace Traced

theorem empty : Store.empty.Traced where
  toAnchored := .empty
  transcribed := Transcribed.empty
  deferred stored := nomatch stored

/-- A change keeps a store traced. -/
theorem of_change (h : s.Traced) (change : Changes locals s t) : t.Traced := by
  refine ⟨(h.toAnchored.of_change change).1,
    Transcribed.of_change h.toWellFormed h.transcribed change, ?_⟩
  intro id declaration data stored origin hc
  cases change with
  | made made free _ =>
    rw [get?_insert] at stored
    split at stored
    · obtain rfl := Option.some.inj stored
      exact absurd origin made.origin
    · exact h.deferred stored origin hc
  | loaded adds =>
    cases adds with
    | receive batch admits =>
      rcases get?_receive_cases stored with old | ⟨hd, rfl⟩
      · exact h.deferred old origin hc
      · obtain ⟨context, -, within⟩ :=
          ((admits declaration hd).placed h.toWellFormed).exists_within
            (Declaration.isInner_of_class? hc)
        obtain ⟨reading, hr, -⟩ := within.deferred data hc
        exact ⟨reading, hr⟩
    | note at_class hk hr unknown _ =>
      obtain ⟨d, old, same⟩ := exists_get?_of_setMembers at_class hk hr stored
      obtain ⟨data', hc', e⟩ := Declaration.exists_class?_of_unread_eq same.symm hc
      have read := (Declaration.congr_unread Declaration.origin_unread same).symm.trans origin
      obtain ⟨reading, hr'⟩ := h.deferred old read hc'
      have unread : data'.members.unread = data.members.unread := congrArg ClassData.members e
      obtain ⟨loaded, hr''⟩ :=
        ClassMembers.exists_deferred_of_unread_eq (unread.symm.trans (congrArg _ hr'))
      exact ⟨_, hr''⟩

/-- Operations keep a store traced, and lose nothing. -/
theorem of_steps (h : s.Traced) (run : ReflTransGen (Step tables) s t) :
    t.Traced ∧ s.Extends t := by
  obtain ⟨-, changes⟩ := h.toAnchored.of_steps (fun _ => True) (fun _ _ _ _ _ _ => trivial) run
  refine ⟨?_, (h.toAnchored.of_changes changes).2⟩
  clear run
  induction changes with
  | refl => exact h
  | tail _ change ih => exact ih.of_change change

end Traced

/-! ## The members of a class at two times -/

/-- The declarations around a place are stored. -/
theorem Inside.exists_get?_of_mem {id : DeclId} {context : ScopeContext}
    (keyed : ∀ {id declaration}, s.get? id = some declaration → declaration.id = id)
    (h : s.Inside id context) :
    ∀ other ∈ context.fragment :: context.declarations,
      ∃ declaration, s.get? other = some declaration := by
  induction h with
  | fragment stored _ =>
    intro other ho
    obtain rfl := List.mem_singleton.1 ho
    exact ⟨_, stored⟩
  | @inner id container declaration context stored _ _ _ ih =>
    intro other ho
    have ho : other ∈ (context.fragment :: context.declarations) ++ [declaration.id] := ho
    rcases List.mem_append.1 ho with ho | ho
    · exact ih other ho
    · obtain rfl := List.mem_singleton.1 ho
      exact ⟨declaration, keyed stored ▸ stored⟩

/-- The path of a place stays. -/
theorem Inside.path_eq {id : DeclId} {context : ScopeContext} (wider : s.Extends t)
    (keyed : ∀ {id declaration}, s.get? id = some declaration → declaration.id = id)
    (h : s.Inside id context) :
    context.path t = context.path s := by
  refine congrArg Text.dotted (List.map_congr_left fun other ho => ?_)
  obtain ⟨declaration, stored⟩ := h.exists_get?_of_mem keyed other ho
  obtain ⟨declaration', stored', same⟩ := wider.kept stored
  simp only [stored, stored']
  exact Declaration.congr_unread Declaration.name_unread same

namespace IsClass

variable {id : DeclId} {data : ClassData} {reading : LazyMembers} (isClass : s.IsClass id data)
  (hr : data.members = .deferred reading)
include isClass hr

/-- A class whose members are read when first asked for stays one. -/
theorem exists_later (wider : s.Extends t) :
    ∃ data' loaded, t.IsClass id data' ∧ data'.unread = data.unread ∧
    data'.members = .deferred { reading with loaded } := by
  obtain ⟨data', isClass', same⟩ := wider.isClass isClass
  have unread : data'.members.unread = data.members.unread := congrArg ClassData.members same
  obtain ⟨loaded, hr'⟩ := ClassMembers.exists_deferred_of_unread_eq (unread.trans (congrArg _ hr))
  exact ⟨data', loaded, isClass', same, hr'⟩

/-- As long as the members of a class are not known, asking for them reads the records. -/
theorem gives_classMembers_iff (unknown : s.members? id = none)
    {r : Except SymbolError (List DeclId)} :
    Gives (classMembers id) s r t ↔ Gives (loadMembers id reading) s r t := by
  obtain ⟨declaration, stored, hc⟩ := isClass
  have loaded : reading.loaded = none := by
    simpa [members?, stored, hc, hr, ClassMembers.known?] using unknown
  have resolved : s.resolve id = .ok declaration := resolve_eq_ok_iff.2 stored
  have same : classMembers id s = loadMembers id reading s := by
    simp [classMembers, StoreM.reading, bind, EStateM.bind, resolved, hc, hr, loaded]
  cases r <;> simp [Gives, same]

end IsClass

namespace Traced

variable (h : s.Traced) {id : DeclId} {data : ClassData} {reading : LazyMembers}
  (isClass : s.IsClass id data) (hr : data.members = .deferred reading)
include h isClass hr

theorem ownerClass_eq (path : String) :
    Site.ownerClass ⟨reading.context, path⟩ s = .ok (id, data) := by
  have owner := (h.inside isClass hr).owner_eq h.keyed
  exact (Site.ownerClass_eq_ok_iff h.toWellFormed).2 ⟨owner.symm, isClass⟩

/-- The records of a class can be read alike at any time. -/
theorem verdict_readAll_eq (h' : t.Traced) (wider : s.Extends t) (n n' : Nat) :
    verdict (readAll n ((reading.context.site s).readers s reading.record)) =
      verdict (readAll n' ((reading.context.site t).readers t reading.record)) := by
  obtain ⟨data', loaded, isClass', -, hr'⟩ := isClass.exists_later hr wider
  have path := (h.inside isClass hr).path_eq wider h.keyed
  have site : reading.context.site t = reading.context.site s := by
    rw [ScopeContext.site, ScopeContext.site, path]
  have owned := h.ownerClass_eq isClass hr (reading.context.path s)
  have owned' := h'.ownerClass_eq isClass' hr' (reading.context.path s)
  rw [site, Site.readers_eq, Site.readers_eq]
  apply verdict_readAll
  rw [List.forall₂_map_left_iff, List.forall₂_map_right_iff, List.forall₂_same]
  intro record _ other other'
  refine MemberRecord.verdict_reader ?_ record
  rw [owned, owned']
  rfl

/-- Members that are known were read, so all records of the class can be read. -/
theorem exists_readAll_of_known {members : List DeclId} (known : s.members? id = some members)
    (n : Nat) :
    ∃ ds, readAll n ((reading.context.site s).readers s reading.record) = .ok ds := by
  obtain ⟨data', isClass', known⟩ := members?_eq_some_iff.1 known
  obtain rfl := isClass.unique isClass'
  rw [hr] at known
  refine exists_readAll_eq_ok (fun read hread other => ?_) n
  rw [Site.readers_eq] at hread
  obtain ⟨record, hrecord, rfl⟩ := List.mem_map.1 hread
  obtain ⟨member, -, base, path, declaration, -, -, -, made⟩ :=
    exists_mem_of_forall₂_left (h.transcribed isClass hr known) hrecord
  exact MemberRecord.exists_reader_eq_ok ⟨_, h.ownerClass_eq isClass hr _⟩ made

/-- If the records of a class cannot be read, asking for its members fails for that reason and uses
up ids. -/
theorem gives_error {e : SymbolError} {n : Nat}
    (unreadable : readAll n ((reading.context.site s).readers s reading.record) = .error e) :
    ∃ m, s.next.number ≤ m ∧ Gives (classMembers id) s (.error e) (s.upTo m) := by
  have unknown : s.members? id = none := by
    refine Option.eq_none_iff_forall_ne_some.2 fun members known => ?_
    obtain ⟨ds, read⟩ := h.exists_readAll_of_known isClass hr known n
    cases read.symm.trans unreadable
  have refused :
      verdict (readAll s.next.number ((reading.context.site s).readers s reading.record)) =
        .error e := by
    rw [← h.verdict_readAll_eq isClass hr h (.refl s) n, verdict_eq_error_iff]
    exact unreadable
  obtain ⟨r, s', asked⟩ := exists_gives (classMembers id) s
  have asked' := (isClass.gives_classMembers_iff hr unknown).1 asked
  obtain ⟨declaration, stored, -⟩ := isClass
  rcases gives_loadMembers_cases (h.allocated stored) asked' with ⟨ds, -, numbered, -⟩ |
    ⟨e', m, rfl, found, le, rfl⟩
  · rw [numbered_iff.1 numbered] at refused
    cases refused
  · rw [found] at refused
    obtain rfl := Except.error.inj refused
    exact ⟨m, le, asked⟩

end Traced

/-- What the first successful question for the members of a class leaves: one declaration for each
of the records, in their order and under the next ids, contained in the class, and the note of their
ids. Nothing else changes, but classes among the members are found from then on. -/
structure Fills (s : Store) (id : DeclId) (reading : LazyMembers) (members : List DeclId)
    (t : Store) : Prop where
  unknown : s.members? id = none
  ids : members = (List.range' s.next.number reading.record.members.length).map DeclId.mk
  next_eq : t.next = ⟨s.next.number + reading.record.members.length⟩
  free : ∀ member ∈ members, s.get? member = none
  read : List.Forall₂ (fun (record : MemberRecord) member =>
    ∃ declaration, t.get? member = some declaration ∧
      declaration.container = some id ∧
      record.reader (reading.context.site s) s member = .ok declaration)
    reading.record.members members
  noted : ∀ declaration, s.get? id = some declaration →
    ∃ data, declaration.kind = .classifier data ∧ t.get? id = some { declaration with
      kind := .classifier
        { data with members := .deferred { reading with loaded := some members } } }
  kept : ∀ other, other ≠ id → other ∉ members → t.get? other = s.get? other
  found : ∀ classId, t.findClass? classId = s.findClass? classId ∨ ∃ member ∈ members, ∃ data,
    t.IsClass member data ∧ data.classId = classId ∧ t.findClass? classId = some member

/-- Declarations that are read from the records of a class under the next ids fill it. -/
theorem Traced.fills (h : s.Traced) {id : DeclId} {declaration : Declaration} {data : ClassData}
    {reading : LazyMembers} (stored : s.get? id = some declaration)
    (hk : declaration.kind = .classifier data) (hr : data.members = .deferred reading)
    (unknown : s.members? id = none) {ds : List Declaration}
    (numbered : Numbered s.next.number ((reading.context.site s).readers s reading.record) ds) :
    s.Fills id reading (ds.map (·.id))
      ((s.receive ⟨s.next.number + ds.length⟩ ds).setMembers id (ds.map (·.id))) := by
  have isClass : s.IsClass id data := ⟨declaration, stored, by simp [Declaration.class?, hk]⟩
  have batch : s.Batch ⟨s.next.number + ds.length⟩ ds :=
    numbered.batch (fun _ => Site.fresh_of_mem_readers) (Nat.le_refl _) (Nat.le_refl _)
  have older := h.allocated stored
  have stored' := (batch.get?_receive_of_old older).trans stored
  have get? := @get?_setMembers _ id declaration data reading (ds.map (·.id)) stored' hk hr
  have length : ds.length = reading.record.members.length := numbered.reads.length_eq.symm
  -- a member is not the class, which is older
  have get?_member {d : Declaration} (hd : d ∈ ds) :
      ((s.receive ⟨s.next.number + ds.length⟩ ds).setMembers id (ds.map (·.id))).get? d.id =
        some d := by
    rw [get?, if_neg]
    · exact batch.get?_receive_of_mem hd
    · rintro rfl
      have := batch.new d hd
      omega
  refine ⟨unknown, ?_, ?_, ?_, ?_, ?_, ?_, ?_⟩
  · rw [numbered.map_id_eq fun _ => Site.fresh_of_mem_readers, length]
  · rw [next_setMembers stored' hk hr, next_receive, length]
  · intro member hm
    obtain ⟨d, hd, rfl⟩ := List.mem_map.1 hm
    refine Option.eq_none_iff_forall_ne_some.2 fun other old => ?_
    have := batch.new d hd
    have := h.allocated old
    omega
  · rw [List.forall₂_map_right_iff]
    have listed := (List.forall₂_and_left ds _).2 ⟨fun _ hd => hd, numbered.reads.flip⟩
    refine List.Forall₂.flip (listed.imp ?_)
    rintro d record ⟨hd, made⟩
    have within : d.Within reading.context :=
      .of_reads h.toWellFormed (@ScopeContext.Reads.member (fun _ => True) _ _ _ _ _ made)
    refine ⟨d, get?_member hd, ?_, made⟩
    rw [within.container, (h.inside isClass hr).owner_eq h.keyed]
  · intro other ho
    obtain rfl := Option.some.inj (stored.symm.trans ho)
    exact ⟨data, hk, by rw [get?, if_pos rfl]⟩
  · intro other apart absent
    rw [get?, if_neg (Ne.symm apart)]
    exact get?_insertAll_of_forall_ne fun d hd e => absent (List.mem_map.2 ⟨d, hd, e⟩)
  · intro classId
    rw [findClass?_setMembers stored' hk hr]
    refine (findClass?_insertAll _ ds classId).imp_right ?_
    rintro ⟨d, hd, data', hc, e, last⟩
    exact ⟨d.id, List.mem_map_of_mem hd, data', ⟨d, get?_member hd, hc⟩, e, last⟩

end Store

/-- Let operations be carried out on the empty store, in any order and with failures or without, and
let a class be stored that was read. Asking for its members either fails, changes nothing but the
next id, and fails for the same reason at every later time; or it gives the members that are known
already or, the first time, reads and stores one declaration for each record of the class, and gives
the same members at every later time without any change. -/
theorem classMembers_once {tables : SymbolTable → Prop} {s s' : Store}
    (run : ReflTransGen (Store.Step tables) .empty s) {id : DeclId} {declaration : Declaration}
    {data : ClassData} (stored : s.get? id = some declaration)
    (origin : declaration.origin = .deserialized) (hc : declaration.class? = some data)
    {r : Except SymbolError (List DeclId)} (asked : Gives (classMembers id) s r s') :
    (∃ e, r = .error e ∧ (∃ m, s.next.number ≤ m ∧ s' = s.upTo m) ∧
      ∀ t, ReflTransGen (Store.Step tables) s' t →
        ∃ m, t.next.number ≤ m ∧ Gives (classMembers id) t (.error e) (t.upTo m)) ∨
    ∃ members reading, r = .ok members ∧ data.members = .deferred reading ∧
      (s.members? id = some members ∧ s' = s ∨ s.Fills id reading members s') ∧
      ∀ t, ReflTransGen (Store.Step tables) s' t → Gives (classMembers id) t (.ok members) t := by
  obtain ⟨traced, -⟩ := Traced.empty.of_steps run
  obtain ⟨traced', wider⟩ :=
    traced.of_steps (.single (.members id r asked) : ReflTransGen (Store.Step tables) s s')
  obtain ⟨reading, hr⟩ := traced.deferred stored origin hc
  have isClass : s.IsClass id data := ⟨declaration, stored, hc⟩
  -- members that are known after the question are known from then on
  have steady {members : List DeclId} (known : s'.members? id = some members) (t : Store)
      (later : ReflTransGen (Store.Step tables) s' t) : Gives (classMembers id) t (.ok members) t :=
    gives_classMembers_of_known ((traced'.of_steps later).2.listed known)
  cases known : s.members? id with
  | some members =>
    obtain ⟨rfl, rfl⟩ := asked.unique (gives_classMembers_of_known known)
    exact .inr ⟨members, reading, rfl, hr, .inl ⟨rfl, rfl⟩, steady known⟩
  | none =>
    have reads := (isClass.gives_classMembers_iff hr known).1 asked
    rcases gives_loadMembers_cases (traced.allocated stored) reads with
      ⟨ds, rfl, numbered, rfl⟩ | ⟨e, m, rfl, unreadable, le, rfl⟩
    · have hk : declaration.kind = .classifier data := by
        obtain ⟨_, _, _, _, _, kind⟩ := declaration
        cases kind <;> simp_all [Declaration.class?]
      have listed := (classMembers_wellFormed traced.toWellFormed asked).2.2 _ rfl
      exact .inr ⟨_, reading, rfl, hr, .inr (traced.fills stored hk hr known numbered),
        steady listed⟩
    · refine .inl ⟨e, rfl, ⟨m, le, rfl⟩, fun t later => ?_⟩
      obtain ⟨later', wider'⟩ := traced'.of_steps later
      obtain ⟨data', loaded, isClass', -, hr'⟩ := isClass.exists_later hr (wider.trans wider')
      have again :=
        traced.verdict_readAll_eq isClass hr later' (wider.trans wider') s.next.number t.next.number
      rw [verdict_eq_error_iff.2 unreadable] at again
      exact later'.gives_error isClass' hr' (verdict_eq_error_iff.1 again.symm)

/-- The members of the class `Box<T>`, its function under the id 5, are read at the first question
and stay at the second one. -/
theorem classMembers_once_of_box :
    let s := Store.empty.after (loadAll boxModule)
    let t := s.after (classMembers ⟨3⟩)
    ∃ reading, s.Fills ⟨3⟩ reading [⟨5⟩] t ∧ Gives (classMembers ⟨3⟩) t (.ok [⟨5⟩]) t := by
  intro s t
  have run : ReflTransGen (Store.Step fun _ => True) .empty s := by
    obtain ⟨r, loaded⟩ := Store.exists_gives_after .empty (loadAll boxModule)
    exact .single (.all boxModule r trivial loaded)
  obtain ⟨declaration, stored, origin, data, hc⟩ : ∃ declaration, s.get? ⟨3⟩ = some declaration ∧
      declaration.origin = .deserialized ∧ ∃ data, declaration.class? = some data :=
    ⟨_, rfl, rfl, _, rfl⟩
  have asked : Gives (classMembers ⟨3⟩) s (.ok [⟨5⟩]) t := by rfl
  have unknown : s.members? ⟨3⟩ = none := by rfl
  rcases classMembers_once run stored origin hc asked with
    ⟨_, refused, -⟩ | ⟨members, reading, given, -, known | fills, steady⟩
  · cases refused
  · cases unknown.symm.trans known.1
  · obtain rfl : [⟨5⟩] = members := Except.ok.inj given
    exact ⟨reading, fills, steady t .refl⟩

end ClassSymbols
