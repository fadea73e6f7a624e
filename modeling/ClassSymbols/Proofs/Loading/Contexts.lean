import ClassSymbols.Proofs.Loading.Renaming
import ClassSymbols.Proofs.Loading.Runs
import ClassSymbols.Proofs.Scope.Owners

/-!
# Two ways to the context inside a class

A class keeps the context for its members from the time when it was read. The tower of its chain
makes up the same context from what is stored. So a record that is read as that of a member and the
same record that is resolved as a local declaration in the class are the same declaration under two
ids.

## Main definitions

* `Store.Recorded` — stores in which type parameters refer to older declarations, and members were
  read from records.

## Main statements

* `Store.Recorded.of_loading` — loading keeps a store recorded.
* `MemberRecord.reader_rename` — a record that is read again, under another id.
* `contexts_agree` — the two ways agree.
-/

namespace ClassSymbols

open Relation Store

variable {P : DeclId → Prop} {f : DeclId → DeclId} {locals : PropertyRecord → Prop}
  {context : ScopeContext} {s t : Store}

/-! ## Type parameters that are read -/

/-- Type parameters that are read refer to their owner and to declarations that the context refers
to. -/
theorem ScopeContext.Owned.readTypeParameters (h : context.Owned P) {owner : DeclId} (own : P owner)
    {records : List TypeParameterRecord} {parameters : List TypeParameter}
    (read : Site.readTypeParameters context owner records = .ok parameters) :
    ∀ parameter ∈ parameters, parameter.Owned P := by
  obtain ⟨heads, read, bounds⟩ := Except.bind_eq_ok_iff.1 read
  have owned : ∀ head ∈ heads, head.Owned P := by
    intro head hh
    obtain ⟨numbered, -, made⟩ := exists_mem_of_forall₂ (mapM_eq_ok_iff.1 read) hh
    obtain ⟨name, -, made⟩ := Except.bind_eq_ok_iff.1 made
    obtain rfl := Except.ok.inj made
    exact ⟨own, by simp⟩
  intro parameter hp
  obtain ⟨⟨head, record⟩, hm, made⟩ := exists_mem_of_forall₂ (mapM_eq_ok_iff.1 bounds) hp
  obtain ⟨types, read, made⟩ := Except.bind_eq_ok_iff.1 made
  obtain rfl := Except.ok.inj made
  refine ⟨(owned head (List.of_mem_zip hm).1).owner, fun bound hb => ?_⟩
  obtain ⟨ref, -, made⟩ := exists_mem_of_forall₂ (mapM_eq_ok_iff.1 read) hb
  exact (h.withParameters owned).readType made

theorem ScopeContext.Reads.owned {base : Store} {declaration : Declaration}
    (h : context.Reads locals base declaration) (owned : context.Owned P) (own : P declaration.id) :
    ∀ parameter ∈ declaration.typeParameters, parameter.Owned P := by
  cases h with
  | @member path record declaration made =>
    cases record with
    | constructor record =>
      obtain ⟨-, data, kind⟩ : (MemberRecord.constructor record).Describes context declaration :=
        MemberRecord.describes_of_reader made
      simp [Declaration.typeParameters, kind]
    | function record =>
      simp only [MemberRecord.reader, Site.readFunction, Site.reporting_eq_ok_iff,
        Except.bind_eq_ok_iff] at made
      obtain ⟨_, -, parameters, read, _, -, _, -, _, -, _, -, made⟩ := made
      obtain rfl := (congrArg Declaration.typeParameters (Except.ok.inj made) : parameters = _)
      exact owned.readTypeParameters own read
    | property record =>
      simp only [MemberRecord.reader, Site.readProperty, Site.reporting_eq_ok_iff,
        Except.bind_eq_ok_iff] at made
      obtain ⟨_, -, parameters, read, _, -, _, -, _, -, made⟩ := made
      obtain rfl := (congrArg Declaration.typeParameters (Except.ok.inj made) : parameters = _)
      exact owned.readTypeParameters own read
    | classifier record =>
      simp only [MemberRecord.reader, Site.readClass, Site.readClassData, Site.reporting_eq_ok_iff,
        Except.bind_eq_ok_iff] at made
      obtain ⟨_, -, data, ⟨parameters, read, _, -, same⟩, _, -, made⟩ := made
      obtain rfl := Except.ok.inj same
      obtain rfl := (congrArg Declaration.typeParameters (Except.ok.inj made) : parameters = _)
      exact (owned.enter own (by simp) _).readTypeParameters own read
  | localVariable _ made =>
    obtain ⟨data, kind, -⟩ := Site.exists_property_of_readProperty made
    simp [Declaration.asVariable, kind, Declaration.typeParameters]

theorem Declaration.typeParameters_eq_nil {declaration : Declaration}
    (outer : declaration.isInner = false) :
    declaration.typeParameters = [] := by
  obtain ⟨id, name, container, annotations, origin, kind⟩ := declaration
  cases kind <;> first | rfl | cases outer

/-! ## Stores -/

/-- Whether a store is rooted, the type parameters in it refer to no declarations under larger ids,
and the members of classes were read from the records of the classes, where they are known. -/
structure Store.Recorded (store : Store) : Prop extends store.Rooted where
  owned : ∀ {id declaration}, store.get? id = some declaration →
    ∀ parameter ∈ declaration.typeParameters, parameter.Owned (·.number ≤ id.number)
  transcribed : store.Transcribed

namespace Store.Recorded

theorem empty : Store.empty.Recorded where
  toRooted := .empty
  owned stored := nomatch stored
  transcribed := Transcribed.empty

variable (h : s.Recorded)
include h

/-- The context inside a declaration refers to no declarations under larger ids. -/
theorem owned_of_inside {id : DeclId} (inside : s.Inside id context) :
    context.Owned (·.number ≤ id.number) := by
  induction inside with
  | fragment => exact .ofFragment (Nat.le_refl _) _ _
  | inner stored _ contained _ ih =>
    have older := h.older stored contained
    have outer := ih.mono fun other le => Nat.le_trans le (Nat.le_of_lt older)
    exact outer.enter (Nat.le_of_eq (congrArg DeclId.number (h.keyed stored))) (h.owned stored) _

/-- The type parameters of what may be stored refer to no declarations under larger ids. -/
theorem owned_of_admits {declaration : Declaration} (admits : s.Admits locals declaration)
    (new : s.next.number ≤ declaration.id.number) :
    ∀ parameter ∈ declaration.typeParameters,
      parameter.Owned (·.number ≤ declaration.id.number) := by
  cases admits with
  | module module _ => simp [Declaration.typeParameters_eq_nil, Declaration.isInner, module]
  | fragment _ _ package _ _ _ =>
    obtain ⟨data, package⟩ := Option.isSome_iff_exists.1 package
    simp [Declaration.typeParameters_eq_nil, Declaration.isInner, package]
  | read context inside read =>
    obtain ⟨outer, stored⟩ := inside.exists_get?
    have older := h.allocated stored
    apply read.owned _ (Nat.le_refl _)
    apply (h.owned_of_inside inside).mono
    intro other le
    omega

/-- An addition keeps a store recorded. -/
theorem of_adds (adds : Adds locals s t) : t.Recorded := by
  refine ⟨(h.toRooted.of_adds adds).1, ?_, Transcribed.of_adds h.transcribed h.toWellFormed adds⟩
  cases adds with
  | receive batch admits =>
    intro id d stored
    rcases get?_receive_cases stored with old | ⟨hd, rfl⟩
    · exact h.owned old
    · exact h.owned_of_admits (admits d hd) (batch.new d hd)
  | note stored hk hr unknown read =>
    intro other d hd
    obtain ⟨d', old, same⟩ := exists_get?_of_setMembers stored hk hr hd
    rw [Declaration.congr_unread Declaration.typeParameters_unread same]
    exact h.owned old

theorem of_additions (adds : ReflTransGen (Adds locals) s t) : t.Recorded := by
  induction adds with
  | refl => exact h
  | tail _ step ih => exact ih.of_adds step

/-- Loading keeps a store recorded, and loses nothing. -/
theorem of_loading (run : ReflTransGen Loading s t) : t.Recorded ∧ s.Extends t := by
  obtain ⟨-, adds⟩ := h.toRooted.of_loading run
  exact ⟨h.of_additions adds, (h.toRooted.of_additions adds).2⟩

end Store.Recorded

/-! ## Records that are read again -/

/-- The renaming that replaces one id by another one. -/
def DeclId.replace (old new id : DeclId) : DeclId := if id = old then new else id

@[simp] theorem DeclId.replace_self (old new : DeclId) : DeclId.replace old new old = new :=
  if_pos rfl

theorem ClassData.selfType_eq {a b : ClassData} (h : a.unread = b.unread) :
    a.selfType = b.selfType :=
  (congrArg selfType h :)

namespace MemberRecord

variable {base base' : Store} {path path' : String} {record : MemberRecord} {id : DeclId}
  {declaration : Declaration}

/-- A record of a member is read alike whatever the path of the site. -/
theorem reader_of_path (h : record.reader ⟨context, path⟩ base id = .ok declaration) :
    record.reader ⟨context, path'⟩ base id = .ok declaration := by
  cases record with
  | constructor record =>
    obtain ⟨owned, found, read⟩ := Except.bind_eq_ok_iff.1 h
    exact Except.bind_eq_ok_iff.2 ⟨owned, found, Site.readConstructor_of_path read⟩
  | function record => exact Site.readFunction_of_path h
  | property record => exact Site.readProperty_of_path h
  | classifier record => exact Site.readClass_of_path h

/-- A record of a member that is read in the renamed context, where the type of an instance of the
class is the renamed one, is the renamed member, or cannot be read for the same reason. -/
theorem reader_translate (wf : base.WellFormed) (wf' : base'.WellFormed) {data data' : ClassData}
    (isClass : base.IsClass context.owner data) (isClass' : base'.IsClass (f context.owner) data')
    (self : data'.selfType = data.selfType.rename f) (record : MemberRecord) :
    record.reader ⟨context.rename f, path⟩ base' (f id) =
      (record.reader ⟨context, path⟩ base id).map (Declaration.rename f) := by
  cases record with
  | constructor record =>
    have owned : Site.ownerClass ⟨context, path⟩ base = .ok (context.owner, data) :=
      (Site.ownerClass_eq_ok_iff wf).2 ⟨rfl, isClass⟩
    have owned' : Site.ownerClass ⟨context.rename f, path⟩ base' = .ok (f context.owner, data') :=
      (Site.ownerClass_eq_ok_iff wf').2 ⟨context.rename_owner.symm, isClass'⟩
    simp only [reader, Site.constructorReader, owned, owned']
    exact Site.readConstructor_rename self context.owner record
  | function record => exact Site.readFunction_rename record
  | property record => exact Site.readProperty_rename record
  | classifier record => exact Site.readClass_rename record

/-- A record of a member that can be read can be read in the renamed context, if the type of an
instance of the class there is the renamed one. -/
theorem reader_rename (wf : base.WellFormed) (wf' : base'.WellFormed)
    (self : ∀ data, base.IsClass context.owner data →
      ∃ data', base'.IsClass (f context.owner) data' ∧ data'.selfType = data.selfType.rename f)
    (h : record.reader ⟨context, path⟩ base id = .ok declaration) :
    record.reader ⟨context.rename f, path'⟩ base' (f id) = .ok (declaration.rename f) := by
  replace h : record.reader ⟨context, path'⟩ base id = .ok declaration := reader_of_path h
  cases record with
  | constructor record =>
    obtain ⟨⟨owner, data⟩, owned, -⟩ := Except.bind_eq_ok_iff.1 h
    obtain ⟨rfl, isClass⟩ := (Site.ownerClass_eq_ok_iff wf).1 owned
    obtain ⟨data', isClass', same⟩ := self data isClass
    rw [reader_translate wf wf' isClass isClass' same, h]
    rfl
  | function record => exact (Site.readFunction_rename record).trans (congrArg _ h)
  | property record => exact (Site.readProperty_rename record).trans (congrArg _ h)
  | classifier record => exact (Site.readClass_rename record).trans (congrArg _ h)

end MemberRecord

namespace Store.Recorded

variable (h : s.Recorded) {id : DeclId} {data : ClassData} {reading : LazyMembers}
  (isClass : s.IsClass id data)
include h isClass

/-- The type of an instance of a class refers to no declarations under larger ids. -/
theorem owned_selfType : data.selfType.Owned (·.number ≤ id.number) := by
  obtain ⟨declaration, stored, hc⟩ := isClass
  refine (Ty.owned_ofClass data.classId).withArguments fun variance argument ha => ?_
  obtain ⟨parameter, hp, e⟩ := List.mem_map.1 ha
  obtain ⟨-, rfl⟩ := TypeArgument.projected.inj e
  refine (h.owned stored parameter ?_).asType
  obtain ⟨_, _, _, _, _, kind⟩ := declaration
  cases kind with
  | classifier data' => exact Option.some.inj hc ▸ hp
  | _ => cases hc

/-- A member that was read from a record is read from it again, under the next id. -/
theorem reread {u : Store} (h' : u.Recorded) {data' : ClassData} (isClass' : u.IsClass id data')
    (same : data'.unread = data.unread) (inside : s.Inside id context) {record : MemberRecord}
    {member : DeclId} (transcribed : u.Transcribes context record member) :
    ∃ declaration, u.get? member = some declaration ∧
      record.reader (context.site s) s s.next =
        .ok (declaration.unread.rename (DeclId.replace member s.next)) := by
  obtain ⟨d, stored, contained⟩ := transcribed.exists_contained
  have owner := inside.owner_eq h.keyed
  have older := h'.older stored (owner ▸ contained)
  obtain ⟨base, path, declaration, wf, before, stored', read⟩ := transcribed
  -- the context and the type of an instance refer to no declarations under larger ids than that of
  -- the class
  have fixed (x : DeclId) (le : x.number ≤ id.number) : DeclId.replace member s.next x = x := by
    refine if_neg fun e => ?_
    rw [e] at le
    omega
  have unchanged := ((h.owned_of_inside inside).mono fixed).rename_eq_self
  have self (data₀ : ClassData) (isClass₀ : base.IsClass context.owner data₀) :
      ∃ data₁, s.IsClass (DeclId.replace member s.next context.owner) data₁ ∧
        data₁.selfType = data₀.selfType.rename (DeclId.replace member s.next) := by
    obtain ⟨data₂, isClass₂, same₂⟩ := before.isClass isClass₀
    rw [owner] at isClass₂
    obtain rfl := isClass₂.unique isClass'
    have type : data.selfType = data₀.selfType := ClassData.selfType_eq (same.symm.trans same₂)
    refine ⟨data, ?_, ?_⟩
    · rwa [owner, fixed id (Nat.le_refl _)]
    · rw [← type, ((h.owned_selfType isClass).mono fixed).rename_eq_self]
  have again :
      record.reader ⟨context.rename _, context.path s⟩ s (DeclId.replace member s.next member) =
        .ok (declaration.unread.rename (DeclId.replace member s.next)) :=
    record.reader_rename wf h.toWellFormed self read
  rw [unchanged, DeclId.replace_self] at again
  exact ⟨declaration, stored', again⟩

/-- The members of a class are those that its record lists, whenever they are known. -/
theorem transcribed_of_unread_eq {data' : ClassData} (same : data'.unread = data.unread)
    (hr : data'.members = .deferred reading) {members : List DeclId}
    (known : s.members? id = some members) :
    List.Forall₂ (s.Transcribes reading.context) reading.record.members members := by
  obtain ⟨data'', isClass'', known⟩ := members?_eq_some_iff.1 known
  obtain rfl := isClass.unique isClass''
  have unread : data.members.unread = data'.members.unread := (congrArg ClassData.members same).symm
  obtain ⟨loaded, e⟩ := ClassMembers.exists_deferred_of_unread_eq (hr ▸ unread)
  rw [e] at known
  have listed := h.transcribed isClass e known
  exact listed

end Store.Recorded

/-- Stores of one run of loading, an earlier and a later one in either order, agree on classes. -/
theorem unread_eq_of_loading {u : Store} (h : s.Recorded) (h' : u.Recorded)
    (near : ReflTransGen Loading s u ∨ ReflTransGen Loading u s) {id : DeclId}
    {data data' : ClassData} (isClass : s.IsClass id data) (isClass' : u.IsClass id data') :
    data'.unread = data.unread := by
  rcases near with later | earlier
  · obtain ⟨data'', found, same⟩ := (h.of_loading later).2.isClass isClass
    exact found.unique isClass' ▸ same
  · obtain ⟨data'', found, same⟩ := (h'.of_loading earlier).2.isClass isClass'
    exact (found.unique isClass ▸ same).symm

/-- Let things be loaded into the empty store, and let the chain of a stored class be found. Then
the chain makes a tower, and its context is the one that the class keeps for its members. Let the
members of the class be known before or afterwards. If a local record is found in the class that is
the record of one of them, and does not declare a variable, then it is resolved, and as the
declaration of that member under another id. -/
theorem contexts_agree (run : ReflTransGen Loading .empty s) {id : DeclId} {data : ClassData}
    (isClass : s.IsClass id data) {chain : List Declaration}
    (leads : s.ownershipChain id = .ok chain) :
    ∃ tower reading, Tower.build chain = .ok tower ∧ data.members = .deferred reading ∧
      tower.context = reading.context ∧
      ∀ (u : Store) (members : List DeclId), ReflTransGen Loading .empty u →
        ReflTransGen Loading s u ∨ ReflTransGen Loading u s → u.members? id = some members →
        ∀ (k : Nat) (record : MemberRecord), reading.record.members[k]? = some record →
        ∀ (table : SymbolTable) (target : RecordRef) (found : LocalRecord),
          localRecord table target chain = .ok (tower, found) → found.member = record →
          found.isVariable = false →
          ∃ member declaration resolved s',
            members[k]? = some member ∧ u.get? member = some declaration ∧
            Gives (resolveLocal table target chain) s (.ok s.next) s' ∧
            s'.get? s.next = some resolved ∧
            resolved = declaration.unread.rename (DeclId.replace member s.next) ∧
            (declaration.class? = none →
              resolved = declaration.rename (DeclId.replace member s.next)) := by
  have recorded := (Recorded.empty.of_loading run).1
  obtain ⟨reading, hr, inside⟩ := recorded.inside_of_deferred isClass
  obtain ⟨chained, -, -⟩ := ownershipChain_eq_ok_iff.1 leads
  obtain ⟨tower, built, context⟩ :=
    inside.exists_tower recorded.toWellFormed recorded.placed chained
  refine ⟨tower, reading, built, hr, context, ?_⟩
  intro u members run' near known k record hk table target found located same plain
  have recorded' := (Recorded.empty.of_loading run').1
  obtain ⟨data', isClass', -⟩ := members?_eq_some_iff.1 known
  have unread := unread_eq_of_loading recorded recorded' near isClass isClass'
  have listed := recorded'.transcribed_of_unread_eq isClass' unread.symm hr known
  obtain ⟨member, hm, transcribed⟩ := exists_getElem?_of_forall₂ listed hk
  obtain ⟨declaration, stored, again⟩ :=
    recorded.reread isClass recorded' isClass' unread inside transcribed
  have read : found.reader (tower.context.site s) s s.next =
      .ok (declaration.unread.rename (DeclId.replace member s.next)) := by
    rw [context, LocalRecord.reader_eq_ok_iff]
    exact ⟨_, same ▸ again, by simp [plain]⟩
  obtain ⟨s', resolved, kept⟩ := exists_gives_resolveLocal located read
  refine ⟨member, declaration, _, s', hm, stored, resolved, kept, rfl, ?_⟩
  intro other
  rw [Declaration.unread_of_class?_eq_none other]

/-- The record of a function `f` from `T` to `T`. -/
def identityRecord : FunctionRecord where
  name := 2
  valueParameters := [{ name := 3, type := .inline (.mk (.typeParameter 0) [] false) }]
  returnType := .inline (.mk (.typeParameter 0) [] false)

/-- A module with a class `Box<T>`, which has a function, and a class `Case` that extends
`Box<Case>`. The record of the function is there as a local record, too. -/
def boxModule : SymbolTable where
  module := "m"
  fragments := .ofList [("p", {
    names := {
      strings := ["Box", "Case", "f", "x", "T"]
      qualifiedNames :=
        [{ shortName := 0, kind := .classifier }, { shortName := 1, kind := .classifier }] }
    types := {}
    classes := [
      { qualifiedName := 0, typeParameters := [{ id := 0, name := 4 }],
        functions := [identityRecord] },
      { qualifiedName := 1
        supertypes := [.inline (.mk (.className 0)
          [.mk (.varying .invariant) (some (.inline (.mk (.className 1) [] false)))] false)] }]
    records := [.function identityRecord] })]

/-- The function of `Box` is read as a member under the id 5, and resolved as a local declaration
under the id 6. -/
theorem contexts_agree_of_box :
    let s := (Store.empty.after (loadAll boxModule)).after (classMembers ⟨3⟩)
    s.members? ⟨3⟩ = some [⟨5⟩] ∧
    ∃ chain declaration resolved s', s.ownershipChain ⟨3⟩ = .ok chain ∧
      s.get? ⟨5⟩ = some declaration ∧ Gives (resolveLocal boxModule ⟨"p", 0⟩ chain) s (.ok ⟨6⟩) s' ∧
      s'.get? ⟨6⟩ = some resolved ∧ resolved = declaration.rename (DeclId.replace ⟨5⟩ ⟨6⟩) := by
  intro s
  have run : ReflTransGen Loading .empty s := by
    obtain ⟨r, loaded⟩ := Store.exists_gives_after .empty (loadAll boxModule)
    obtain ⟨r', read⟩ :=
    Store.exists_gives_after (Store.empty.after (loadAll boxModule)) (classMembers ⟨3⟩)
    exact .tail (.single (.all boxModule r loaded)) (.members ⟨3⟩ r' read)
  have known : s.members? ⟨3⟩ = some [⟨5⟩] := by rfl
  have next : s.next = ⟨6⟩ := by rfl
  have plain : (s.get? ⟨5⟩).bind (·.class?) = none := by rfl
  obtain ⟨chain, leads, ⟨tower, _⟩, located, rfl⟩ : ∃ chain, s.ownershipChain ⟨3⟩ = .ok chain ∧
      ∃ found, localRecord boxModule ⟨"p", 0⟩ chain = .ok found ∧
        found.2 = .function identityRecord :=
    ⟨_, rfl, _, rfl, rfl⟩
  obtain ⟨data, isClass, reading, hr, hk⟩ :
      ∃ data, s.IsClass ⟨3⟩ data ∧ ∃ reading, data.members = .deferred reading ∧
        reading.record.members[0]? = some (.function identityRecord) :=
        ⟨_, ⟨_, rfl, rfl⟩, _, rfl, rfl⟩
  obtain ⟨tower', reading', built, hr', -, agree⟩ := contexts_agree run isClass leads
  obtain rfl := ClassMembers.deferred.inj (hr.symm.trans hr')
  obtain rfl := Except.ok.inj (built.symm.trans (build_of_localRecord located))
  obtain ⟨member, declaration, resolved, s', hm, stored, gives, kept, -, renamed⟩ :=
    agree s [⟨5⟩] run (.inl .refl) known 0 _ hk boxModule ⟨"p", 0⟩ _ located rfl rfl
  obtain rfl : ⟨5⟩ = member := Option.some.inj hm
  rw [next] at gives kept renamed
  rw [stored] at plain
  exact ⟨known, chain, declaration, resolved, s', leads, stored, gives, kept, renamed plain⟩

end ClassSymbols
