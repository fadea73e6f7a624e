import ClassSymbols.Proofs.Loading.Members

/-!
# Declarations and their records

The members of a class that have been read are described by the records of the class, one by one and
in the same order.

## Main definitions

* `MemberRecord` — the records of members.
* `MemberRecord.Describes` — whether a declaration was read from a record.
* `Store.Described` — stores in which all members have been read from records.

## Main statements

* `Store.Described.classMembers` — asking for the members of a class keeps all members described.
-/

namespace ClassSymbols

/-- The record of a member of a class. -/
inductive MemberRecord where
  | constructor (record : ConstructorRecord)
  | function (record : FunctionRecord)
  | property (record : PropertyRecord)
  | classifier (record : ClassRecord)

/-- The records of all members of a class, in the order in which they are read. -/
def ClassRecord.members (record : ClassRecord) : List MemberRecord :=
  record.constructors.map .constructor ++ record.functions.map .function ++
    record.properties.map .property ++ record.nestedClasses.map .classifier

/-- Whether a declaration was read from a record in a context. -/
def MemberRecord.Describes (context : ScopeContext) (declaration : Declaration) :
    MemberRecord → Prop
  | .constructor _ =>
    declaration.name = constructorName ∧ ∃ data, declaration.kind = .constructor data
  | .function record => ∃ path,
    Site.readFunction ⟨context, path⟩ declaration.id record = .ok declaration
  | .property record =>
    ∃ path, Site.readProperty ⟨context, path⟩ declaration.id record = .ok declaration
  | .classifier record =>
    ∃ path, Site.readClass ⟨context, path⟩ declaration.id record = .ok declaration

def Store.Stores (store : Store) (context : ScopeContext) (record : MemberRecord) (id : DeclId) :
    Prop :=
  ∃ declaration, store.get? id = some declaration ∧ record.Describes context declaration.unread

/-- Stores in which the classes that are found are stored, and no class has members that were not
read from its record, or one member twice. -/
structure Store.Described (store : Store) : Prop where
  indexed : store.Indexed
  members : ∀ {id data}, store.IsClass id data → ∃ reading, data.members = .deferred reading ∧
    ∀ members, reading.loaded = some members → members.Nodup ∧
      List.Forall₂ (store.Stores reading.context) reading.record.members members

/-- The members that a class lists are stored. -/
theorem Store.Described.exists_get?_of_listed {store : Store} (h : store.Described) {id : DeclId}
    {members : List DeclId} (known : store.members? id = some members) {member : DeclId}
    (hm : member ∈ members) :
    ∃ declaration, store.get? member = some declaration := by
  obtain ⟨data, isClass, known⟩ := members?_eq_some_iff.1 known
  obtain ⟨reading, hr, described⟩ := h.members isClass
  rw [hr] at known
  obtain ⟨_, -, declaration, stored, -⟩ := exists_mem_of_forall₂ (described members known).2 hm
  exact ⟨declaration, stored⟩

/-! ## What is read -/

def MemberRecord.reader (site : Site) (base : Store) : MemberRecord → Reader
  | .constructor record => site.constructorReader base record
  | .function record => fun id => site.readFunction id record
  | .property record => fun id => site.readProperty id record
  | .classifier record => fun id => site.readClass id record

theorem MemberRecord.fresh_reader (site : Site) (base : Store) (record : MemberRecord) :
    Reader.Fresh (record.reader site base) := by
  cases record with
  | constructor record => exact Site.fresh_constructorReader record
  | function record => exact Site.fresh_readFunction record
  | property record => exact Site.fresh_readProperty record
  | classifier record => exact Site.fresh_readClass record

theorem Site.readers_eq (site : Site) (base : Store) (record : ClassRecord) :
    site.readers base record = record.members.map (MemberRecord.reader site base) := by
  simp only [readers, ClassRecord.members, List.map_append, List.map_map]
  rfl

theorem Site.exists_deferred_of_readClass {site : Site} {id : DeclId} {record : ClassRecord}
    {declaration : Declaration} (h : site.readClass id record = .ok declaration) :
    ∃ data context, declaration.class? = some data ∧
      data.members = .deferred { record, context } := by
  simp only [readClass, readClassData, reporting, Except.mapError_eq_ok_iff, Except.bind_eq_ok_iff]
    at h
  obtain ⟨_, -, data, ⟨_, -, _, -, made⟩, _, -, h⟩ := h
  obtain rfl := Except.ok.inj h
  obtain rfl := Except.ok.inj made
  exact ⟨_, _, rfl, rfl⟩

theorem Site.exists_function_of_readFunction {site : Site} {id : DeclId} {record : FunctionRecord}
    {declaration : Declaration} (h : site.readFunction id record = .ok declaration) :
    ∃ data, declaration.kind = .function data ∧ data.overridden = [] := by
  simp only [readFunction, reporting, Except.mapError_eq_ok_iff, Except.bind_eq_ok_iff] at h
  obtain ⟨_, -, _, -, _, -, _, -, _, -, _, -, h⟩ := h
  obtain rfl := Except.ok.inj h
  exact ⟨_, rfl, rfl⟩

theorem Site.exists_property_of_readProperty {site : Site} {id : DeclId} {record : PropertyRecord}
    {declaration : Declaration} (h : site.readProperty id record = .ok declaration) :
    ∃ data, declaration.kind = .property data ∧ data.overridden = [] := by
  simp only [readProperty, reporting, Except.mapError_eq_ok_iff, Except.bind_eq_ok_iff] at h
  obtain ⟨_, -, _, -, _, -, _, -, _, -, h⟩ := h
  obtain rfl := Except.ok.inj h
  exact ⟨_, rfl, rfl⟩

theorem Declaration.unread_of_unknown {declaration : Declaration}
    (unknown : ∀ data, declaration.class? = some data → data.members.known? = none) :
    declaration.unread = declaration := by
  obtain ⟨id, name, container, annotations, origin, kind⟩ := declaration
  cases kind with
  | classifier data =>
    have unknown := unknown data rfl
    obtain ⟨_, _, _, _, _, _, _, _, members⟩ := data
    cases members with
    | eager members => cases unknown
    | deferred reading =>
      obtain ⟨record, context, loaded⟩ := reading
      obtain rfl : loaded = none := unknown
      rfl
  | _ => rfl

theorem MemberRecord.describes_of_reader {site : Site} {base : Store} {record : MemberRecord}
    {id : DeclId} {declaration : Declaration} (h : record.reader site base id = .ok declaration) :
    record.Describes site.context declaration := by
  cases record with
  | constructor record =>
    obtain ⟨⟨owner, data⟩, -, h⟩ := Except.bind_eq_ok_iff.1 h
    simp only [Site.readConstructor, Site.reporting, Except.mapError_eq_ok_iff,
      Except.bind_eq_ok_iff] at h
    obtain ⟨_, -, _, -, h⟩ := h
    obtain rfl := Except.ok.inj h
    exact ⟨rfl, _, rfl⟩
  | function record =>
    obtain ⟨rfl, -⟩ := Site.fresh_readFunction record h
    exact ⟨site.path, h⟩
  | property record =>
    obtain ⟨rfl, -⟩ := Site.fresh_readProperty record h
    exact ⟨site.path, h⟩
  | classifier record =>
    obtain ⟨rfl, -⟩ := Site.fresh_readClass record h
    exact ⟨site.path, h⟩

/-- Each declaration that is read from the record of a class is read under its own id. -/
theorem Numbered.reads {n : Nat} {site : Site} {base : Store} {record : ClassRecord}
    {ds : List Declaration} (h : Numbered n (site.readers base record) ds) :
    List.Forall₂ (fun (record : MemberRecord) d => record.reader site base d.id = .ok d)
      record.members ds := by
  have steps := h.forall₂
  rw [Site.readers_eq, List.forall₂_map_left_iff] at steps
  refine steps.imp ?_
  rintro record d ⟨id, made⟩
  obtain ⟨rfl, -⟩ := record.fresh_reader _ _ made
  exact made

/-- What is read from the record of a class is described by it. -/
theorem Numbered.describes {n : Nat} {site : Site} {base : Store} {record : ClassRecord}
    {ds : List Declaration} (h : Numbered n (site.readers base record) ds) :
    List.Forall₂ (fun record d => record.Describes site.context d) record.members ds :=
  h.reads.imp fun _ _ read => MemberRecord.describes_of_reader read

/-! ## Stores -/

section Stores

variable {s t : Store}

theorem Store.Stores.mono
    (kept : ∀ {id declaration}, s.get? id = some declaration →
      ∃ declaration', t.get? id = some declaration' ∧ declaration'.unread = declaration.unread)
    {context : ScopeContext} {record : MemberRecord} {id : DeclId}
    (h : s.Stores context record id) :
    t.Stores context record id := by
  obtain ⟨declaration, stored, described⟩ := h
  obtain ⟨declaration', stored', same⟩ := kept stored
  exact ⟨declaration', stored', same ▸ described⟩

/-- Declarations that bring no read members may be stored. -/
theorem Store.Described.receive {next : DeclId} {declarations : List Declaration} (h : s.Described)
    (wf : s.WellFormed) (batch : s.Batch next declarations) :
    (s.receive next declarations).Described := by
  refine ⟨batch.indexed wf h.indexed, ?_⟩
  rintro id data ⟨declaration, stored, hc⟩
  rcases Store.get?_receive_cases stored with old | ⟨hd, -⟩
  · obtain ⟨reading, e, described⟩ := h.members ⟨declaration, old, hc⟩
    refine ⟨reading, e, fun members known => (described members known).imp_right fun h => ?_⟩
    refine h.imp fun _ _ => Store.Stores.mono fun stored => ?_
    exact ⟨_, (batch.get?_receive_of_old (wf.allocated stored)).trans stored, rfl⟩
  · have unknown := batch.unread declaration hd data hc
    cases hm : data.members with
    | eager members => simp [hm, ClassMembers.known?] at unknown
    | deferred reading =>
      refine ⟨reading, rfl, fun members known => ?_⟩
      simp [hm, ClassMembers.known?, known] at unknown

/-- Members that have been read from the record of a class may be noted. -/
theorem Store.Described.setMembers (h : s.Described) {id : DeclId} {declaration : Declaration}
    {data : ClassData} {reading : LazyMembers} {members : List DeclId}
    (stored : s.get? id = some declaration) (hk : declaration.kind = .classifier data)
    (hr : data.members = .deferred reading) (nodup : members.Nodup)
    (described : List.Forall₂ (s.Stores reading.context) reading.record.members members) :
    (s.setMembers id members).Described := by
  have get? := @Store.get?_setMembers s id declaration data reading members stored hk hr
  have kept {other : DeclId} {d : Declaration} (hd : s.get? other = some d) :
      ∃ d', (s.setMembers id members).get? other = some d' ∧ d'.unread = d.unread :=
    Store.exists_get?_setMembers stored hk hr hd
  refine ⟨Store.Indexed.setMembers stored hk hr h.indexed, ?_⟩
  rintro other data' ⟨d, hd, hc⟩
  rw [get?] at hd
  by_cases same : id = other
  · rw [if_pos same] at hd
    obtain rfl := Option.some.inj hd
    obtain rfl := Option.some.inj hc
    refine ⟨_, rfl, fun l known => ?_⟩
    obtain rfl := Option.some.inj known
    exact ⟨nodup, described.imp fun _ _ => Store.Stores.mono kept⟩
  · rw [if_neg same] at hd
    obtain ⟨reading', e, described'⟩ := h.members ⟨d, hd, hc⟩
    refine ⟨reading', e, fun l known => (described' l known).imp_right fun h => ?_⟩
    exact h.imp fun _ _ => Store.Stores.mono kept

/-- Asking for the members of a class keeps all members described. -/
theorem Store.Described.classMembers (h : s.Described) (sound : s.Sound) {id : DeclId}
    {r : Except SymbolError (List DeclId)} (asked : Gives (classMembers id) s r t) :
    t.Described := by
  rcases classMembers_reads sound.toWellFormed asked with
    ⟨m, batch, rfl, -⟩ | ⟨declaration, data, reading, ds, stored, hk, hr, -, -, numbered, batch,
      rfl⟩
  · exact h.receive sound.toWellFormed batch
  · have received := h.receive sound.toWellFormed batch
    have old := batch.get?_receive_of_old (sound.allocated stored)
    refine received.setMembers (old.trans stored) hk hr batch.nodup ?_
    rw [List.forall₂_map_right_iff]
    have listed := (List.forall₂_and_left ds _).2 ⟨fun _ hd => hd, numbered.describes.flip⟩
    refine List.Forall₂.flip (listed.imp fun d record h => ?_)
    exact ⟨d, batch.get?_receive_of_mem h.1, by
      rw [Declaration.unread_of_unknown (batch.unread d h.1)]
      exact h.2⟩

end Stores

end ClassSymbols
