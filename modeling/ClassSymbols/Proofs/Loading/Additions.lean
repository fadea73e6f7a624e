import ClassSymbols.Loading.Local
import ClassSymbols.Loading.Module
import ClassSymbols.Proofs.Loading.Records
import ClassSymbols.Proofs.Store.Rooted
import Mathlib.Logic.Relation

/-!
# What loading adds

Whatever is loaded, modules and package fragments are stored, and declarations that were read in the
context inside a stored declaration, all of them under new ids; and the members of a class are noted
once they have been read from its record. What each of these additions keeps is kept by all of
loading.

## Main definitions

* `ScopeContext.Reads` — whether a declaration was read in a context.
* `Store.Transcribes` — whether a member was read from a record.
* `Store.Admits` — whether a declaration may be stored.
* `Store.Adds` — one addition to a store.
* `Store.Anchored` — stores in which the members of classes are read in the contexts inside the
  classes.

## Main statements

* `Store.Anchored.of_adds`, `Store.Anchored.of_additions` — additions keep a store anchored, and
  lose nothing.
* `Store.Rooted.of_adds`, `Store.Rooted.of_additions` — additions keep a store rooted.
-/

namespace ClassSymbols

open Relation

/-! ## What is read -/

/-- Whether a declaration was read in a context: from the record of a member of a class, or as a
local variable from one of the records `locals`. -/
inductive ScopeContext.Reads (locals : PropertyRecord → Prop) (context : ScopeContext)
    (base : Store) :
    Declaration → Prop
  | member {path : String} {record : MemberRecord} {declaration : Declaration} :
      record.reader ⟨context, path⟩ base declaration.id = .ok declaration →
      Reads locals context base declaration
  | localVariable {path : String} {record : PropertyRecord} {declaration : Declaration} :
    locals record →
      Site.readProperty ⟨context, path⟩ declaration.id record = .ok declaration →
      Reads locals context base declaration.asVariable

section Within

variable {locals : PropertyRecord → Prop} {context : ScopeContext} {path : String} {id : DeclId}
  {declaration : Declaration}

theorem ScopeContext.enter_nil_withParameters (context : ScopeContext) (declaration : DeclId)
    (parameters : List TypeParameter) (types : Option TypeTable) :
    (context.enter declaration [] types).withParameters parameters =
      context.enter declaration parameters types := by
  simp [enter, withParameters, ParameterScope.push]

/-- A class that is read keeps the context inside it, as the layers of its chain make it up. -/
theorem Declaration.Within.of_readClass {record : ClassRecord}
    (h : Site.readClass ⟨context, path⟩ id record = .ok declaration) :
    declaration.Within context := by
  simp only [Site.readClass, Site.readClassData, Site.reporting, Except.mapError_eq_ok_iff,
    Except.bind_eq_ok_iff] at h
  obtain ⟨_, -, data, ⟨parameters, -, _, -, made⟩, _, -, h⟩ := h
  obtain rfl := Except.ok.inj h
  obtain rfl := Except.ok.inj made
  refine ⟨rfl, rfl, fun data hc => ?_⟩
  obtain rfl := Option.some.inj hc
  exact ⟨_, rfl, ScopeContext.enter_nil_withParameters ..⟩

theorem Declaration.Within.of_readFunction {record : FunctionRecord}
    (h : Site.readFunction ⟨context, path⟩ id record = .ok declaration) :
    declaration.Within context := by
  simp only [Site.readFunction, Site.reporting, Except.mapError_eq_ok_iff, Except.bind_eq_ok_iff]
    at h
  obtain ⟨_, -, _, -, _, -, _, -, _, -, _, -, h⟩ := h
  obtain rfl := Except.ok.inj h
  exact ⟨rfl, rfl, fun _ hc => by cases hc⟩

theorem Declaration.Within.of_readProperty {record : PropertyRecord}
    (h : Site.readProperty ⟨context, path⟩ id record = .ok declaration) :
    declaration.Within context ∧ declaration.asVariable.Within context := by
  simp only [Site.readProperty, Site.reporting, Except.mapError_eq_ok_iff, Except.bind_eq_ok_iff]
    at h
  obtain ⟨_, -, _, -, _, -, _, -, _, -, h⟩ := h
  obtain rfl := Except.ok.inj h
  exact ⟨⟨rfl, rfl, fun _ hc => by cases hc⟩, ⟨rfl, rfl, fun _ hc => by cases hc⟩⟩

theorem Site.ownerClass_eq_ok_iff {site : Site} {base : Store} (wf : base.WellFormed)
    {owner : DeclId} {data : ClassData} :
    site.ownerClass base = .ok (owner, data) ↔
      owner = site.context.owner ∧ base.IsClass owner data := by
  simp only [ownerClass, Except.bind_eq_ok_iff, Store.resolve_eq_ok_iff]
  constructor
  · rintro ⟨outer, stored, owned⟩
    cases hc : outer.class? with
    | none => simp [hc, throw, throwThe, MonadExceptOf.throw] at owned
    | some data' =>
      rw [hc] at owned
      obtain ⟨rfl, rfl⟩ := Prod.mk.inj (Except.ok.inj owned)
      have own := wf.keyed stored
      exact ⟨own, outer, own ▸ stored, hc⟩
  · rintro ⟨rfl, outer, stored, hc⟩
    exact ⟨outer, stored, by simp [hc, wf.keyed stored, pure, Except.pure]⟩

theorem Declaration.Within.of_constructorReader {base : Store} (wf : base.WellFormed)
    {record : ConstructorRecord}
    (h : Site.constructorReader ⟨context, path⟩ base record id = .ok declaration) :
    declaration.Within context := by
  simp only [Site.constructorReader, Site.readConstructor, Site.reporting,
    Except.mapError_eq_ok_iff, Except.bind_eq_ok_iff] at h
  obtain ⟨⟨owner, data⟩, owned, _, -, _, -, h⟩ := h
  obtain rfl := Except.ok.inj h
  obtain ⟨rfl, -⟩ := (Site.ownerClass_eq_ok_iff wf).1 owned
  exact ⟨rfl, rfl, fun _ hc => by cases hc⟩

/-- What is read belongs into the context that it is read in. -/
theorem Declaration.Within.of_reads {base : Store} (wf : base.WellFormed)
    (h : context.Reads locals base declaration) : declaration.Within context := by
  cases h with
  | @member _ record _ read =>
    cases record with
    | constructor => exact .of_constructorReader wf read
    | function => exact .of_readFunction read
    | property => exact (Within.of_readProperty read).1
    | classifier => exact .of_readClass read
  | localVariable _ read => exact (Within.of_readProperty read).2

end Within

/-! ## Additions -/

namespace Store

/-- Whether the member under an id was read from a record in a context, at a time when the store had
less. -/
def Transcribes (store : Store) (context : ScopeContext) (record : MemberRecord) (member : DeclId) :
    Prop :=
  ∃ base path declaration, base.WellFormed ∧ base.Extends store ∧
    store.get? member = some declaration ∧
    record.reader ⟨context, path⟩ base member = .ok declaration.unread

/-- Whether a declaration may be stored: a module, a package fragment of a stored module, or a
declaration that was read in the context inside a stored one. -/
inductive Admits (locals : PropertyRecord → Prop) (store : Store) (declaration : Declaration) :
    Prop where
  | module (module : declaration.isModule = true) (outermost : declaration.container = none)
  | fragment (module : DeclId) (outer : Declaration) (package : declaration.package?.isSome = true)
      (container : declaration.container = some module) (stored : store.get? module = some outer)
      (outermost : outer.isModule = true)
  | read (context : ScopeContext) (inside : store.Inside context.owner context)
      (read : context.Reads locals store declaration)

/-- One addition to a store: declarations under new ids, or the note of the members of a class. -/
inductive Adds (locals : PropertyRecord → Prop) : Store → Store → Prop
  | receive {s : Store} {next : DeclId} {declarations : List Declaration} :
    s.Batch next declarations →
      (∀ declaration ∈ declarations, s.Admits locals declaration) →
      Adds locals s (s.receive next declarations)
  | note {s : Store} {id : DeclId} {declaration : Declaration} {data : ClassData}
      {reading : LazyMembers} {members : List DeclId} :
    s.get? id = some declaration → declaration.kind = .classifier data →
      data.members = .deferred reading → reading.loaded = none →
      List.Forall₂ (s.Transcribes reading.context) reading.record.members members →
      Adds locals s (s.setMembers id members)

/-- Whether the members of classes are read in the contexts inside the classes. -/
structure Anchored (store : Store) : Prop extends store.WellFormed where
  inside : ∀ {id data reading}, store.IsClass id data → data.members = .deferred reading →
    store.Inside id reading.context

/-- Whether the members of classes were read from the records of the classes, where they are
known. -/
def Transcribed (store : Store) : Prop :=
  ∀ {id data reading members}, store.IsClass id data → data.members = .deferred reading →
    reading.loaded = some members →
    List.Forall₂ (store.Transcribes reading.context) reading.record.members members

variable {locals : PropertyRecord → Prop} {s t : Store}

theorem Admits.placed {declaration : Declaration} (wf : s.WellFormed)
    (h : s.Admits locals declaration) :
    s.Placed declaration := by
  cases h with
  | module module outermost => exact .module module outermost
  | fragment module outer package container stored outermost =>
    exact .fragment module outer package container stored outermost
  | read context inside read => exact .inner context inside (.of_reads wf read)

theorem Transcribes.mono (wider : s.Extends t) {context : ScopeContext} {record : MemberRecord}
    {member : DeclId} (h : s.Transcribes context record member) :
    t.Transcribes context record member := by
  obtain ⟨base, path, declaration, wf, before, stored, read⟩ := h
  obtain ⟨declaration', stored', same⟩ := wider.kept stored
  exact ⟨base, path, declaration', wf, before.trans wider, stored', same ▸ read⟩

/-- A member that was read in a context is contained in the innermost declaration there. -/
theorem Transcribes.exists_contained {context : ScopeContext} {record : MemberRecord}
    {member : DeclId} (h : s.Transcribes context record member) :
    ∃ declaration, s.get? member = some declaration ∧
      declaration.container = some context.owner := by
  obtain ⟨base, path, declaration, wf, -, stored, read⟩ := h
  have own := (record.fresh_reader _ _ read).1
  have within : declaration.unread.Within context :=
    .of_reads wf (@ScopeContext.Reads.member (fun _ => True) _ _ _ _ _ (own.symm ▸ read))
  exact ⟨declaration, stored, declaration.container_unread ▸ within.container⟩

/-! ### Anchored stores -/

namespace Anchored

theorem empty : Store.empty.Anchored where
  toWellFormed := .empty
  inside := fun ⟨_, stored, _⟩ => nomatch stored

/-- A class that is stored and keeps the context inside it for its members is anchored. -/
theorem inside_of_within {id : DeclId} {declaration : Declaration} {data : ClassData}
    {reading : LazyMembers} {context : ScopeContext} (stored : s.get? id = some declaration)
    (hc : declaration.class? = some data) (hr : data.members = .deferred reading)
    (within : declaration.Within context) (outer : s.Inside context.owner context) :
    s.Inside id reading.context := by
  obtain ⟨reading', hr', keeps⟩ := within.deferred data hc
  obtain rfl := ClassMembers.deferred.inj (hr.symm.trans hr')
  exact keeps ▸ .inner stored within.inner within.container outer

variable (h : s.Anchored)
include h

/-- Declarations may be stored if their members, too, are to be read in the contexts inside them. -/
theorem receive {next : DeclId} {declarations : List Declaration}
    (batch : s.Batch next declarations)
    (anchored : ∀ declaration ∈ declarations, ∀ data reading, declaration.class? = some data →
      data.members = .deferred reading →
      (s.receive next declarations).Inside declaration.id reading.context) :
    (s.receive next declarations).Anchored where
  toWellFormed := h.toWellFormed.receive batch
  inside := by
    rintro id data reading ⟨d, stored, hc⟩ hr
    rcases get?_receive_cases stored with old | ⟨hd, rfl⟩
    · exact (h.inside ⟨d, old, hc⟩ hr).mono (batch.toExtends h.toWellFormed).kept
    · exact anchored d hd data reading hc hr

/-- An addition keeps a store anchored, and loses nothing. -/
theorem of_adds (adds : Adds locals s t) : t.Anchored ∧ s.Extends t := by
  cases adds with
  | receive batch admits =>
    have wider := batch.toExtends h.toWellFormed
    refine ⟨h.receive batch fun d hd data reading hc hr => ?_, wider⟩
    obtain ⟨context, outer, within⟩ :=
      ((admits d hd).placed h.toWellFormed).exists_within (Declaration.isInner_of_class? hc)
    exact inside_of_within (batch.get?_receive_of_mem hd) hc hr within (outer.mono wider.kept)
  | @note id declaration data reading members stored hk hr unknown read =>
    have wider : s.Extends (s.setMembers id members) := .setMembers stored hk hr unknown
    refine ⟨⟨h.toWellFormed.setMembers stored hk hr, ?_⟩, wider⟩
    rintro other data' reading' ⟨d, hd, hc⟩ hr'
    obtain ⟨d', old, same⟩ := exists_get?_of_setMembers stored hk hr hd
    obtain ⟨data'', hc'', e⟩ := Declaration.exists_class?_of_unread_eq same.symm hc
    have unread : data''.members.unread = data'.members.unread := congrArg ClassData.members e
    obtain ⟨loaded, hr''⟩ := ClassMembers.exists_deferred_of_unread_eq (hr' ▸ unread)
    exact (h.inside ⟨d', old, hc''⟩ hr'').mono wider.kept

/-- Additions keep a store anchored, and lose nothing. -/
theorem of_additions (adds : ReflTransGen (Adds locals) s t) : t.Anchored ∧ s.Extends t := by
  induction adds with
  | refl => exact ⟨h, .refl s⟩
  | tail _ step ih =>
    obtain ⟨anchored, wider⟩ := ih
    obtain ⟨anchored', wider'⟩ := anchored.of_adds step
    exact ⟨anchored', wider.trans wider'⟩

end Anchored

namespace Transcribed

theorem empty : Store.empty.Transcribed := fun ⟨_, stored, _⟩ => nomatch stored

variable (h : s.Transcribed)
include h

/-- Declarations may be stored without members that have been read. -/
theorem receive (wf : s.WellFormed) {next : DeclId} {declarations : List Declaration}
    (batch : s.Batch next declarations) : (s.receive next declarations).Transcribed := by
  rintro id data reading members ⟨d, stored, hc⟩ hr known
  rcases get?_receive_cases stored with old | ⟨hd, -⟩
  · exact (h ⟨d, old, hc⟩ hr known).imp fun _ _ => .mono (batch.toExtends wf)
  · have unread := batch.unread d hd data hc
    simp [hr, ClassMembers.known?, known] at unread

/-- An addition notes members that were read from records. -/
theorem of_adds (wf : s.WellFormed) (adds : Adds locals s t) : t.Transcribed := by
  cases adds with
  | receive batch _ => exact h.receive wf batch
  | @note id declaration data reading members stored hk hr unknown read =>
    have wider : s.Extends (s.setMembers id members) := .setMembers stored hk hr unknown
    rintro other data' reading' listed ⟨d, hd, hc⟩ hr' known
    rw [get?_setMembers stored hk hr] at hd
    by_cases same : id = other
    · rw [if_pos same] at hd
      obtain rfl := Option.some.inj hd
      obtain rfl := Option.some.inj hc
      obtain rfl := ClassMembers.deferred.inj hr'
      obtain rfl := Option.some.inj known
      exact read.imp fun _ _ => .mono wider
    · rw [if_neg same] at hd
      exact (h ⟨d, hd, hc⟩ hr' known).imp fun _ _ => .mono wider

end Transcribed

/-! ### Rooted stores -/

namespace Rooted

/-- The members of a stored class are read in the context inside it. -/
theorem inside_of_deferred (h : s.Rooted) {id : DeclId} {data : ClassData}
    (isClass : s.IsClass id data) :
    ∃ reading, data.members = .deferred reading ∧ s.Inside id reading.context := by
  obtain ⟨declaration, stored, hc⟩ := isClass
  obtain ⟨context, inside, within⟩ :=
    (h.placed stored).exists_within (Declaration.isInner_of_class? hc)
  obtain ⟨reading, hr, e⟩ := within.deferred data hc
  exact ⟨reading, hr, e ▸ .inner stored within.inner within.container inside⟩

theorem anchored (h : s.Rooted) : s.Anchored where
  toWellFormed := h.toWellFormed
  inside isClass hr := by
    obtain ⟨reading, hr', inside⟩ := h.inside_of_deferred isClass
    exact ClassMembers.deferred.inj (hr.symm.trans hr') ▸ inside

/-- An addition keeps a store rooted, and loses nothing. -/
theorem of_adds (h : s.Rooted) (adds : Adds locals s t) : t.Rooted ∧ s.Extends t := by
  cases adds with
  | receive batch admits =>
    exact ⟨h.receive batch fun d hd =>
      (admits d hd).placed h.toWellFormed, batch.toExtends h.toWellFormed⟩
  | @note id declaration data reading members stored hk hr unknown read =>
    refine ⟨h.setMembers stored hk hr unknown fun member hm => ?_, .setMembers stored hk hr unknown⟩
    have isClass : s.IsClass id data := ⟨declaration, stored, by simp [Declaration.class?, hk]⟩
    obtain ⟨record, -, transcribed⟩ := exists_mem_of_forall₂ read hm
    obtain ⟨reading', hr', inside⟩ := h.inside_of_deferred isClass
    obtain rfl := ClassMembers.deferred.inj (hr.symm.trans hr')
    exact inside.owner_eq h.keyed ▸ transcribed.exists_contained

/-- Additions keep a store rooted, and lose nothing. -/
theorem of_additions (h : s.Rooted) (adds : ReflTransGen (Adds locals) s t) :
    t.Rooted ∧ s.Extends t := by
  induction adds with
  | refl => exact ⟨h, .refl s⟩
  | tail _ step ih =>
    obtain ⟨rooted, wider⟩ := ih
    obtain ⟨rooted', wider'⟩ := rooted.of_adds step
    exact ⟨rooted', wider.trans wider'⟩

end Rooted

end Store

end ClassSymbols
