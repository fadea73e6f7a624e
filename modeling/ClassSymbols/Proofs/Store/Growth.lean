import ClassSymbols.Proofs.Store.WellFormed

/-!
# Growing stores

Queries only add to a store. They give out ids, store declarations under them, and note the members
of classes once they have been read. What was stored stays, up to the note that members have been
read.

## Main definitions

* `Declaration.unread` — a declaration without the note that its members have been read.
* `Store.members?` — the members of a class, if they are known.
* `Store.Indexed` — stores in which each class that is found is stored.
* `Store.Sound` — stores in which no member is in the lists of two classes.
* `Store.Extends` — whether a store has all that another one has.
* `Store.Evolves` — whether a store was reached from another one by queries and by reading single
  declarations.
* `Store.Still` — whether a store has no classes beside those of another one, the members of which
  are known.
* `Store.Grows` — whether a store was reached from another one by queries.

## Main statements

* `Store.Evolves.trans`, `Store.Grows.trans` — growth is transitive.
* `Store.Evolves.findClass?_between` — a class that is found before and after is found in between.
* `Store.Batch.evolves`, `Store.Batch.grows`, `Store.Sound.receive` — storing declarations under new
  ids.
* `Store.Evolves.setMembers`, `Store.Sound.setMembers` — noting members under new ids.
-/

namespace ClassSymbols

/-! ## Notes of what has been read -/

def ClassMembers.known? : ClassMembers → Option (List DeclId)
  | .eager members => some members
  | .deferred reading => reading.loaded

def ClassMembers.unread : ClassMembers → ClassMembers
  | .eager members => .eager members
  | .deferred reading => .deferred { reading with loaded := none }

/-- Members that are read when first asked for stay so, with their record and context. -/
theorem ClassMembers.exists_deferred_of_unread_eq {members : ClassMembers} {reading : LazyMembers}
    (h : members.unread = (ClassMembers.deferred reading).unread) :
    ∃ loaded, members = .deferred { reading with loaded } := by
  cases members with
  | eager members => cases h
  | deferred other =>
    have same : { other with loaded := none } = { reading with loaded := none } :=
      ClassMembers.deferred.inj h
    obtain ⟨record, context, loaded⟩ := other
    obtain ⟨rfl, rfl, -⟩ := LazyMembers.mk.inj same
    exact ⟨loaded, rfl⟩

def ClassData.unread (data : ClassData) : ClassData := { data with members := data.members.unread }

theorem ClassData.classId_eq {a b : ClassData} (h : a.unread = b.unread) : a.classId = b.classId :=
  (congrArg ClassData.classId h :)

theorem ClassData.supertypes_eq {a b : ClassData} (h : a.unread = b.unread) :
    a.supertypes = b.supertypes := (congrArg ClassData.supertypes h :)

/-- A declaration without the note that its members have been read. -/
def Declaration.unread (declaration : Declaration) : Declaration :=
  match declaration.kind with
  | .classifier data => { declaration with kind := .classifier data.unread }
  | _ => declaration

theorem Declaration.unread_of_class?_eq_none {declaration : Declaration}
    (h : declaration.class? = none) : declaration.unread = declaration := by
  unfold class? at h
  unfold unread
  split <;> simp_all

theorem Declaration.class?_unread (declaration : Declaration) :
    declaration.unread.class? = declaration.class?.map ClassData.unread := by
  obtain ⟨id, name, container, annotations, origin, kind⟩ := declaration
  cases kind <;> rfl

/-- Declarations that only differ in what has been read are classes alike. -/
theorem Declaration.exists_class?_of_unread_eq {a b : Declaration} (h : b.unread = a.unread)
    {data : ClassData} (hc : a.class? = some data) :
    ∃ data', b.class? = some data' ∧ data'.unread = data.unread := by
  have same := congrArg Declaration.class? h
  rw [class?_unread, class?_unread, hc] at same
  exact Option.map_eq_some_iff.1 same

/-- Only a class is changed by forgetting what has been read. -/
theorem Declaration.eq_of_unread_eq {a b : Declaration} (h : a.unread = b.unread)
    (hb : b.class? = none) : a = b := by
  have ha : a.class? = none := by
    have := congrArg Declaration.class? h
    rw [class?_unread, class?_unread, hb] at this
    simpa using this
  rw [← unread_of_class?_eq_none ha, h, unread_of_class?_eq_none hb]

@[simp] theorem Declaration.unread_unread (declaration : Declaration) :
    declaration.unread.unread = declaration.unread := by
  obtain ⟨id, name, container, annotations, origin, kind⟩ := declaration
  cases kind with
  | classifier data =>
    obtain ⟨_, _, _, _, _, _, _, _, members⟩ := data
    cases members <;> rfl
  | _ => rfl

/-- What does not depend on the members that have been read is the same for two declarations that
differ in them alone. -/
theorem Declaration.congr_unread {α : Type} {f : Declaration → α}
    (blind : ∀ d : Declaration, f d.unread = f d) {a b : Declaration} (h : a.unread = b.unread) :
    f a = f b := by
  rw [← blind a, h, blind b]

theorem Declaration.id_unread (declaration : Declaration) :
    declaration.unread.id = declaration.id := by
  obtain ⟨id, name, container, annotations, origin, kind⟩ := declaration
  cases kind <;> rfl

@[simp] theorem Declaration.isCallable_unread (declaration : Declaration) :
    declaration.unread.isCallable = declaration.isCallable := by
  obtain ⟨id, name, container, annotations, origin, kind⟩ := declaration
  cases kind <;> rfl

@[simp] theorem Declaration.name_unread (declaration : Declaration) :
    declaration.unread.name = declaration.name := by
  obtain ⟨id, name, container, annotations, origin, kind⟩ := declaration
  cases kind <;> rfl

theorem Declaration.container_unread (declaration : Declaration) :
    declaration.unread.container = declaration.container := by
  obtain ⟨id, name, container, annotations, origin, kind⟩ := declaration
  cases kind <;> rfl

theorem Declaration.origin_unread (declaration : Declaration) :
    declaration.unread.origin = declaration.origin := by
  obtain ⟨id, name, container, annotations, origin, kind⟩ := declaration
  cases kind <;> rfl

theorem Declaration.visibility_unread (declaration : Declaration) :
    declaration.unread.visibility = declaration.visibility := by
  obtain ⟨id, name, container, annotations, origin, kind⟩ := declaration
  cases kind <;> rfl

theorem Declaration.class?_eq_none_of_isCallable {declaration : Declaration}
    (h : declaration.isCallable = true) : declaration.class? = none := by
  unfold isCallable at h
  unfold class?
  split at h <;> simp_all

namespace Store

def IsClass (store : Store) (id : DeclId) (data : ClassData) : Prop :=
  ∃ declaration, store.get? id = some declaration ∧ declaration.class? = some data

theorem IsClass.unique {store : Store} {id : DeclId} {data data' : ClassData}
    (h : store.IsClass id data) (h' : store.IsClass id data') : data = data' := by
  obtain ⟨declaration, stored, hc⟩ := h
  obtain ⟨declaration', stored', hc'⟩ := h'
  obtain rfl := Option.some.inj (stored.symm.trans stored')
  exact Option.some.inj (hc.symm.trans hc')

def members? (store : Store) (id : DeclId) : Option (List DeclId) := do
  let declaration ← store.get? id
  let data ← declaration.class?
  data.members.known?

theorem members?_eq_some_iff {store : Store} {id : DeclId} {members : List DeclId} :
    store.members? id = some members ↔
      ∃ data, store.IsClass id data ∧ data.members.known? = some members := by
  simp only [members?, IsClass, Option.bind_eq_bind, Option.bind_eq_some_iff]
  constructor
  · rintro ⟨declaration, stored, data, hc, known⟩
    exact ⟨data, ⟨declaration, stored, hc⟩, known⟩
  · rintro ⟨data, ⟨declaration, stored, hc⟩, known⟩
    exact ⟨declaration, stored, data, hc, known⟩

def Complete (store : Store) : Prop :=
  ∀ id data, store.IsClass id data → ∃ members, data.members.known? = some members

def Indexed (store : Store) : Prop :=
  ∀ classId id, store.findClass? classId = some id → ∃ data, store.IsClass id data

/-- Members are known by ids that have been given out, and no member is in the lists of two
classes. -/
structure Sound (store : Store) : Prop extends store.WellFormed where
  listed_allocated : ∀ {id members}, store.members? id = some members →
    ∀ member ∈ members, member.number < store.next.number
  one_owner : ∀ {id other members members'}, store.members? id = some members →
    store.members? other = some members' → ∀ member ∈ members, member ∈ members' → id = other

/-- Whether a store has all that another one has, up to notes of what has been read. -/
structure Extends (s t : Store) : Prop where
  next_le : s.next.number ≤ t.next.number
  kept : ∀ {id declaration}, s.get? id = some declaration →
    ∃ declaration', t.get? id = some declaration' ∧ declaration'.unread = declaration.unread
  listed : ∀ {id members}, s.members? id = some members → t.members? id = some members

namespace Extends

variable {s t u : Store}

theorem refl (s : Store) : s.Extends s :=
  ⟨Nat.le_refl _, fun stored => ⟨_, stored, rfl⟩, fun known => known⟩

theorem trans (h : s.Extends t) (g : t.Extends u) : s.Extends u := by
  refine ⟨Nat.le_trans h.next_le g.next_le,
    fun stored => ?_, fun known => g.listed (h.listed known)⟩
  obtain ⟨d, hd, same⟩ := h.kept stored
  obtain ⟨d', hd', same'⟩ := g.kept hd
  exact ⟨d', hd', same'.trans same⟩

theorem isClass (h : s.Extends t) {id : DeclId} {data : ClassData} (stored : s.IsClass id data) :
    ∃ data', t.IsClass id data' ∧ data'.unread = data.unread := by
  obtain ⟨d, hd, hc⟩ := stored
  obtain ⟨d', hd', e⟩ := h.kept hd
  obtain ⟨data', hc', same⟩ := Declaration.exists_class?_of_unread_eq e hc
  exact ⟨data', ⟨d', hd', hc'⟩, same⟩

/-- What is stored and not a class stays as it is. -/
theorem get?_of_class?_eq_none (h : s.Extends t) {id : DeclId} {declaration : Declaration}
    (stored : s.get? id = some declaration) (plain : declaration.class? = none) :
    t.get? id = some declaration := by
  obtain ⟨d, hd, e⟩ := h.kept stored
  exact Declaration.eq_of_unread_eq e plain ▸ hd

/-- A class keeps its supertypes. -/
theorem supertypes_eq (h : s.Extends t) {id : DeclId} {data data' : ClassData}
    (stored : s.IsClass id data) (stored' : t.IsClass id data') :
    data'.supertypes = data.supertypes := by
  obtain ⟨found, isClass, same⟩ := h.isClass stored
  exact stored'.unique isClass ▸ ClassData.supertypes_eq same

end Extends

/-- Whether a store was reached from another one by queries and by reading single declarations: what
is new is under new ids. -/
structure Evolves (s t : Store) : Prop extends Extends s t where
  noted : ∀ {id members}, t.members? id = some members →
    s.members? id = some members ∨ ∀ member ∈ members, s.next.number ≤ member.number
  fresh : ∀ {id declaration}, t.get? id = some declaration →
    (∃ declaration', s.get? id = some declaration') ∨ s.next.number ≤ id.number
  found : ∀ classId, t.findClass? classId = s.findClass? classId ∨
    ∃ id data, t.findClass? classId = some id ∧ t.IsClass id data ∧ s.next.number ≤ id.number

namespace Evolves

variable {s t u : Store}

theorem refl (s : Store) : s.Evolves s where
  toExtends := .refl s
  noted known := .inl known
  fresh stored := .inl ⟨_, stored⟩
  found _ := .inl rfl

theorem trans (h : s.Evolves t) (g : t.Evolves u) : s.Evolves u where
  toExtends := h.toExtends.trans g.toExtends
  noted known := by
    rcases g.noted known with known | later
    · exact h.noted known
    · exact .inr fun member hm => Nat.le_trans h.next_le (later member hm)
  fresh stored := by
    rcases g.fresh stored with ⟨d, hd⟩ | later
    · exact h.fresh hd
    · exact .inr (Nat.le_trans h.next_le later)
  found classId := by
    rcases g.found classId with e | ⟨id, data, found, isClass, later⟩
    · rcases h.found classId with e' | ⟨id, data, found, isClass, later⟩
      · exact .inl (e.trans e')
      · obtain ⟨data', isClass', -⟩ := g.isClass isClass
        exact .inr ⟨id, data', e.trans found, isClass', later⟩
    · exact .inr ⟨id, data, found, isClass, Nat.le_trans h.next_le later⟩

/-- A class that is found before and after is found in between. -/
theorem findClass?_between (h : s.Evolves t) (g : t.Evolves u) {classId : ClassId}
    (allocated : ∀ {id}, s.findClass? classId = some id → id.number < s.next.number)
    (same : u.findClass? classId = s.findClass? classId) :
    t.findClass? classId = s.findClass? classId := by
  rcases h.found classId with e | ⟨id, _, found, -, later⟩
  · exact e
  · exfalso
    have bound := h.next_le
    rcases g.found classId with e | ⟨id', _, found', -, later'⟩
    · have := allocated (same.symm.trans (e.trans found))
      omega
    · have := allocated (same.symm.trans found')
      omega

end Evolves

/-- Whether the members of all classes of a store are known, and another store has no further
classes. -/
structure Still (s t : Store) : Prop where
  complete : s.Complete
  classes : ∀ {id data}, t.IsClass id data → ∃ data', s.IsClass id data'

namespace Still

variable {s t u : Store} (h : s.Still u) (evolves : s.Evolves t) (evolves' : t.Evolves u)
include h evolves evolves'

/-- Without further classes, the members of all classes are known. -/
theorem complete_between : t.Complete := by
  intro id data isClass
  obtain ⟨later, isClass', -⟩ := evolves'.isClass isClass
  obtain ⟨old, stored⟩ := h.classes isClass'
  obtain ⟨members, known⟩ := h.complete id old stored
  obtain ⟨data', isClass'', known⟩ :=
    members?_eq_some_iff.1 (evolves.listed (members?_eq_some_iff.2 ⟨old, stored, known⟩))
  exact ⟨members, isClass.unique isClass'' ▸ known⟩

/-- Without further classes, the classes that are found stay. -/
theorem findClass?_between (wf : s.WellFormed) (classId : ClassId) :
    t.findClass? classId = s.findClass? classId := by
  rcases evolves.found classId with same | ⟨id, data, -, isClass, new⟩
  · exact same
  · obtain ⟨later, isClass', -⟩ := evolves'.isClass isClass
    obtain ⟨old, declaration, stored, -⟩ := h.classes isClass'
    have := wf.allocated stored
    omega

end Still

/-- Whether a store was reached from another one by queries. -/
structure Grows (s t : Store) : Prop where
  next_le : s.next.number ≤ t.next.number
  kept : ∀ {id declaration}, s.get? id = some declaration →
    ∃ declaration', t.get? id = some declaration' ∧ declaration'.unread = declaration.unread
  listed : ∀ {id members}, s.members? id = some members → t.members? id = some members
  noted : ∀ {id members}, t.members? id = some members →
    s.members? id = some members ∨ ∀ member ∈ members, s.next.number ≤ member.number
  fresh : ∀ {id declaration}, t.get? id = some declaration →
    (∃ declaration', s.get? id = some declaration') ∨ s.next.number ≤ id.number
  found : ∀ classId, t.findClass? classId = s.findClass? classId ∨
    ∃ id, t.findClass? classId = some id ∧ s.next.number ≤ id.number
  complete : s.Complete → t.Complete ∧ ∀ classId, t.findClass? classId = s.findClass? classId

namespace Grows

variable {s t u : Store}

theorem refl (s : Store) : s.Grows s :=
  ⟨Nat.le_refl _, fun h => ⟨_, h, rfl⟩, fun h => h, fun h => .inl h, fun h => .inl ⟨_, h⟩,
    fun _ => .inl rfl, fun h => ⟨h, fun _ => rfl⟩⟩

theorem trans (h : s.Grows t) (g : t.Grows u) : s.Grows u := by
  refine ⟨Nat.le_trans h.next_le g.next_le,
    fun stored => ?_, fun known => g.listed (h.listed known),
    fun known => ?_, fun stored => ?_, fun classId => ?_, fun known => ?_⟩
  · obtain ⟨d, hd, e⟩ := h.kept stored
    obtain ⟨d', hd', e'⟩ := g.kept hd
    exact ⟨d', hd', e'.trans e⟩
  · rcases g.noted known with known | later
    · exact h.noted known
    · exact .inr fun member hm => Nat.le_trans h.next_le (later member hm)
  · rcases g.fresh stored with ⟨d, hd⟩ | later
    · exact h.fresh hd
    · exact .inr (Nat.le_trans h.next_le later)
  · rcases g.found classId with e | ⟨id, found, later⟩
    · rw [e]
      exact h.found classId
    · exact .inr ⟨id, found, Nat.le_trans h.next_le later⟩
  · obtain ⟨ht, same⟩ := h.complete known
    obtain ⟨hu, same'⟩ := g.complete ht
    exact ⟨hu, fun classId => (same' classId).trans (same classId)⟩

theorem toExtends (h : s.Grows t) : s.Extends t := ⟨h.next_le, h.kept, h.listed⟩

/-- A class stays, up to the note that its members have been read. -/
theorem isClass (h : s.Grows t) {id : DeclId} {data : ClassData} (stored : s.IsClass id data) :
    ∃ data', t.IsClass id data' ∧ data'.unread = data.unread := h.toExtends.isClass stored

/-- A class keeps its supertypes. -/
theorem supertypes_eq (h : s.Grows t) {id : DeclId} {data data' : ClassData}
    (stored : s.IsClass id data) (stored' : t.IsClass id data') :
    data'.supertypes = data.supertypes := h.toExtends.supertypes_eq stored stored'

end Grows

/-- A store that evolves grows if no class is read once the members of all classes are known. -/
theorem Evolves.grows {s t : Store} (h : s.Evolves t)
    (complete : s.Complete → t.Complete ∧ ∀ classId, t.findClass? classId = s.findClass? classId) :
    s.Grows t where
  next_le := h.next_le
  kept := h.kept
  listed := h.listed
  noted := h.noted
  fresh := h.fresh
  found classId := (h.found classId).imp_right fun ⟨id, _, found, _, new⟩ => ⟨id, found, new⟩
  complete := complete

/-- Without further classes, what evolves grows. -/
theorem Still.grows {s t u : Store} (h : s.Still u) (wf : s.WellFormed) (evolves : s.Evolves t)
    (evolves' : t.Evolves u) :
    s.Grows t ∧ t.Grows u := by
  have between := h.findClass?_between evolves evolves' wf
  have last := h.findClass?_between (evolves.trans evolves') (.refl u) wf
  refine ⟨evolves.grows fun _ =>
    ⟨h.complete_between evolves evolves', between⟩, evolves'.grows fun _ => ⟨?_, ?_⟩⟩
  · exact h.complete_between (evolves.trans evolves') (.refl u)
  · exact fun classId => (last classId).trans (between classId).symm

/-! ## Operations -/

section Operations

variable {s : Store} {next : DeclId} {declarations : List Declaration}

@[simp] theorem findClass?_insert (s : Store) (declaration : Declaration) (classId : ClassId) :
    (s.insert declaration).findClass? classId =
      match declaration.class? with
      | some data => if data.classId = classId then some declaration.id else s.findClass? classId
      | none => s.findClass? classId := by
  obtain ⟨id, name, container, annotations, origin, kind⟩ := declaration
  cases kind <;> simp [insert, findClass?, Declaration.class?]

theorem findClass?_insertAll (s : Store) (declarations : List Declaration) (classId : ClassId) :
    (s.insertAll declarations).findClass? classId = s.findClass? classId ∨
      ∃ declaration ∈ declarations,
        ∃ data, declaration.class? = some data ∧ data.classId = classId ∧
        (s.insertAll declarations).findClass? classId = some declaration.id := by
  induction declarations generalizing s with
  | nil => exact .inl rfl
  | cons declaration rest ih =>
    rcases ih (s.insert declaration) with same | ⟨found, hf, e⟩
    · have unfolded : (s.insertAll (declaration :: rest)).findClass? classId =
          (s.insert declaration).findClass? classId := same
      rw [findClass?_insert] at unfolded
      rw [unfolded]
      split
      · next data hc =>
        split
        · next same => exact .inr ⟨declaration, List.mem_cons_self, data, hc, same, rfl⟩
        · exact .inl rfl
      · exact .inl rfl
    · exact .inr ⟨found, List.mem_cons_of_mem _ hf, e⟩

/-- A class that is found is found from then on, and each class that is stored is found. -/
theorem isSome_findClass?_insertAll {classId : ClassId}
    (h : (s.findClass? classId).isSome ∨ ∃ declaration ∈ declarations,
      ∃ data, declaration.class? = some data ∧ data.classId = classId) :
    ((s.insertAll declarations).findClass? classId).isSome := by
  induction declarations generalizing s with
  | nil => simpa [insertAll] using h
  | cons declaration rest ih =>
    refine (ih ?_ : ((insertAll (s.insert declaration) rest).findClass? classId).isSome)
    rw [findClass?_insert]
    rcases h with old | ⟨other, ho, data, hc, e⟩
    · left
      split
      · split
        · rfl
        · exact old
      · exact old
    · rcases List.mem_cons.1 ho with rfl | ho
      · simp [hc, e]
      · exact .inr ⟨other, ho, data, hc, e⟩

theorem findClass?_insertAll_of_class?_eq_none (s : Store)
    (plain : ∀ declaration ∈ declarations, declaration.class? = none) (classId : ClassId) :
    (s.insertAll declarations).findClass? classId = s.findClass? classId := by
  induction declarations generalizing s with
  | nil => rfl
  | cons declaration rest ih =>
    refine (ih _ fun other ho => plain other (List.mem_cons_of_mem _ ho)).trans ?_
    rw [findClass?_insert, plain declaration List.mem_cons_self]

/-- Declarations under ids that have just been given out: their ids are different from one another
and from those that were given out before, and no members of them are known yet. -/
structure Batch (s : Store) (next : DeclId) (declarations : List Declaration) : Prop where
  next_le : s.next.number ≤ next.number
  nodup : (declarations.map (·.id)).Nodup
  new : ∀ declaration ∈ declarations, s.next.number ≤ declaration.id.number
  allocated : ∀ declaration ∈ declarations, declaration.id.number < next.number
  unread : ∀ declaration ∈ declarations, ∀ data, declaration.class? = some data →
    data.members.known? = none

/-- The store once ids up to `next` are given out and declarations are stored. -/
def receive (s : Store) (next : DeclId) (declarations : List Declaration) : Store :=
  { s with next }.insertAll declarations

@[simp] theorem next_receive (s : Store) (next : DeclId) (declarations : List Declaration) :
    (s.receive next declarations).next = next := next_insertAll _ _

theorem batch_nil {m : Nat} (le : s.next.number ≤ m) : s.Batch ⟨m⟩ [] :=
  ⟨le, by simp, by simp, by simp, by simp⟩

/-- A declaration under the next id is a batch. -/
theorem batch_singleton {declaration : Declaration} (own : declaration.id = s.next)
    (unread : ∀ data, declaration.class? = some data → data.members.known? = none) :
    s.Batch s.next.next [declaration] := by
  refine ⟨Nat.le_succ _, by simp, ?_, ?_, by simpa using unread⟩ <;>
    simp only [List.mem_singleton, forall_eq, own]
  · exact Nat.le_refl _
  · exact Nat.lt_succ_self _

theorem get?_receive_cases {id : DeclId} {declaration : Declaration}
    (h : (s.receive next declarations).get? id = some declaration) :
    s.get? id = some declaration ∨ declaration ∈ declarations ∧ declaration.id = id := by
  have found : (declarations.reverse.find? (·.id == id)).or (s.get? id) = some declaration :=
    (get?_insertAll { s with next } declarations id).symm.trans h
  rcases Option.or_eq_some_iff.1 found with found | ⟨-, old⟩
  · exact .inr ⟨List.mem_reverse.1 (List.mem_of_find?_eq_some found),
      by simpa using List.find?_some found⟩
  · exact .inl old

theorem get?_receive_singleton {id : DeclId} {declaration : Declaration} :
    (s.receive next [declaration]).get? id = if declaration.id = id then some declaration
      else s.get? id :=
  get?_insert { s with next } declaration id

namespace Batch

variable (batch : s.Batch next declarations)
include batch

theorem get?_receive_of_mem {declaration : Declaration} (h : declaration ∈ declarations) :
    (s.receive next declarations).get? declaration.id = some declaration :=
  get?_insertAll_of_mem batch.nodup h

theorem get?_receive_of_old {id : DeclId} (old : id.number < s.next.number) :
    (s.receive next declarations).get? id = s.get? id := by
  refine get?_insertAll_of_forall_ne fun declaration h e => ?_
  have := batch.new declaration h
  rw [e] at this
  omega

theorem members?_receive_of_some {id : DeclId} {members : List DeclId}
    (known : (s.receive next declarations).members? id = some members) :
    s.members? id = some members := by
  obtain ⟨data, ⟨declaration, stored, hc⟩, known⟩ := members?_eq_some_iff.1 known
  rcases get?_receive_cases stored with old | ⟨h, -⟩
  · exact members?_eq_some_iff.2 ⟨data, ⟨declaration, old, hc⟩, known⟩
  · simp [batch.unread declaration h data hc] at known

theorem toExtends (wf : s.WellFormed) : s.Extends (s.receive next declarations) := by
  have old {id : DeclId} {declaration : Declaration} (stored : s.get? id = some declaration) :
      (s.receive next declarations).get? id = some declaration :=
    (batch.get?_receive_of_old (wf.allocated stored)).trans stored
  refine ⟨by simpa using batch.next_le, fun stored => ⟨_, old stored, rfl⟩, fun known => ?_⟩
  obtain ⟨data, ⟨declaration, stored, hc⟩, known⟩ := members?_eq_some_iff.1 known
  exact members?_eq_some_iff.2 ⟨data, ⟨declaration, old stored, hc⟩, known⟩

/-- With a batch, a store evolves. -/
theorem evolves (wf : s.WellFormed) : s.Evolves (s.receive next declarations) where
  toExtends := batch.toExtends wf
  noted known := .inl (batch.members?_receive_of_some known)
  fresh stored := by
    rcases get?_receive_cases stored with stored | ⟨h, rfl⟩
    · exact .inl ⟨_, stored⟩
    · exact .inr (batch.new _ h)
  found classId := by
    rcases findClass?_insertAll { s with next } declarations classId with same |
      ⟨declaration, h, data, hc, -, e⟩
    · exact .inl same
    · exact .inr ⟨declaration.id, data, e, ⟨declaration, batch.get?_receive_of_mem h, hc⟩,
        batch.new _ h⟩

/-- Storing a batch is growth. If the members of all classes are known, it must not bring
classes. -/
theorem grows (wf : s.WellFormed)
    (plain : s.Complete → ∀ declaration ∈ declarations, declaration.class? = none) :
    s.Grows (s.receive next declarations) := by
  refine (batch.evolves wf).grows fun complete => ⟨fun _ _ isClass => ?_, fun classId => ?_⟩
  · obtain ⟨declaration, stored, hc⟩ := isClass
    rcases get?_receive_cases stored with stored | ⟨h, -⟩
    · exact complete _ _ ⟨declaration, stored, hc⟩
    · simp [plain complete declaration h] at hc
  · exact findClass?_insertAll_of_class?_eq_none _ (plain complete) classId

theorem indexed (wf : s.WellFormed) (h : s.Indexed) : (s.receive next declarations).Indexed := by
  intro classId id found
  rcases findClass?_insertAll { s with next } declarations classId with same |
    ⟨declaration, hd, data, hc, -, e⟩
  · obtain ⟨data, declaration, stored, hc⟩ := h _ _ (same.symm.trans found)
    exact ⟨data, declaration, (batch.get?_receive_of_old (wf.allocated stored)).trans stored, hc⟩
  · obtain rfl := Option.some.inj (e.symm.trans found)
    exact ⟨data, declaration, batch.get?_receive_of_mem hd, hc⟩

end Batch

theorem WellFormed.receive (h : s.WellFormed) (batch : s.Batch next declarations) :
    (s.receive next declarations).WellFormed := by
  have wider : { s with next : Store }.WellFormed :=
    ⟨h.keyed, fun stored => Nat.lt_of_lt_of_le (h.allocated stored) batch.next_le⟩
  exact wider.insertAll batch.allocated

theorem Sound.receive (h : s.Sound) (batch : s.Batch next declarations) :
    (s.receive next declarations).Sound where
  toWellFormed := h.toWellFormed.receive batch
  listed_allocated known member hm := by
    have := h.listed_allocated (batch.members?_receive_of_some known) member hm
    rw [next_receive]
    exact Nat.lt_of_lt_of_le this batch.next_le
  one_owner known known' :=
    h.one_owner (batch.members?_receive_of_some known)
      (batch.members?_receive_of_some known')

/-! ### Noting members -/

section Note

variable {id : DeclId} {declaration : Declaration} {data : ClassData} {reading : LazyMembers}
  {members : List DeclId} (stored : s.get? id = some declaration)
  (hk : declaration.kind = .classifier data) (hr : data.members = .deferred reading)
include stored hk hr

theorem get?_setMembers (other : DeclId) : (s.setMembers id members).get? other =
    if id = other then
      some { declaration with
        kind :=
  .classifier { data with members := .deferred { reading with loaded := some members } } }
    else s.get? other := by
  have noted : s.setMembers id members = { s with
      declarations := s.declarations.insert id { declaration with
        kind := .classifier
          { data with members := .deferred { reading with loaded := some members } } } } := by
    simp [setMembers, stored, hk, hr]
  rw [noted]
  exact DeclMap.get?_insert _ _ _ _

theorem next_setMembers : (s.setMembers id members).next = s.next := by
  simp [setMembers, stored, hk, hr]

theorem findClass?_setMembers (classId : ClassId) :
    (s.setMembers id members).findClass? classId = s.findClass? classId := by
  have kept : (s.setMembers id members).classes = s.classes := by simp [setMembers, stored, hk, hr]
  rw [findClass?, kept]
  rfl

theorem Indexed.setMembers (h : s.Indexed) : (s.setMembers id members).Indexed := by
  intro classId other found
  rw [findClass?_setMembers stored hk hr] at found
  obtain ⟨data', declaration', stored', hc⟩ := h _ _ found
  by_cases same : id = other
  · exact ⟨_, _, (get?_setMembers stored hk hr other).trans (if_pos same), rfl⟩
  · exact ⟨data', declaration',
      ((get?_setMembers stored hk hr other).trans (if_neg same)).trans stored', hc⟩

theorem members?_setMembers (other : DeclId) : (s.setMembers id members).members? other =
    if id = other then some members else s.members? other := by
  unfold members?
  rw [get?_setMembers stored hk hr]
  by_cases e : id = other <;> simp [e, Declaration.class?, ClassMembers.known?]

/-- Noting the members of a class changes no declaration, up to that note. -/
theorem exists_get?_setMembers {other : DeclId} {d : Declaration} (hd : s.get? other = some d) :
    ∃ d', (s.setMembers id members).get? other = some d' ∧ d'.unread = d.unread := by
  rw [get?_setMembers stored hk hr]
  by_cases same : id = other
  · subst same
    obtain rfl := Option.some.inj (stored.symm.trans hd)
    refine ⟨_, if_pos rfl, ?_⟩
    obtain ⟨_, _, _, _, _, kind⟩ := declaration
    obtain rfl : kind = .classifier data := hk
    simp [Declaration.unread, ClassData.unread, ClassMembers.unread, hr]
  · exact ⟨d, by rw [if_neg same]; exact hd, rfl⟩

theorem exists_get?_of_setMembers {other : DeclId} {d : Declaration}
    (hd : (s.setMembers id members).get? other = some d) :
    ∃ d', s.get? other = some d' ∧ d.unread = d'.unread := by
  obtain ⟨d', old⟩ : ∃ d', s.get? other = some d' := by
    rw [get?_setMembers stored hk hr] at hd
    by_cases same : id = other
    · exact ⟨declaration, same ▸ stored⟩
    · rw [if_neg same] at hd
      exact ⟨d, hd⟩
  obtain ⟨d'', noted, same⟩ :=
    @exists_get?_setMembers s id declaration data reading members stored hk hr other d' old
  obtain rfl := Option.some.inj (hd.symm.trans noted)
  exact ⟨d', old, same⟩

theorem Extends.setMembers (unknown : reading.loaded = none) :
    s.Extends (s.setMembers id members) := by
  have unlisted : s.members? id = none := by
    simp [Store.members?, stored, Declaration.class?, hk, hr, ClassMembers.known?, unknown]
  refine ⟨Nat.le_of_eq ?_, fun hd => exists_get?_setMembers stored hk hr hd,
    fun {other l} known => ?_⟩
  · rw [next_setMembers stored hk hr]
  · rw [members?_setMembers stored hk hr]
    by_cases same : id = other
    · subst same
      simp [unlisted] at known
    · rw [if_neg same]
      exact known

/-- A store evolves when members under new ids are noted, of a class whose members are not known
yet. -/
theorem Evolves.setMembers {s₀ : Store} (h : s₀.Evolves s) (unknown : reading.loaded = none)
    (new : ∀ member ∈ members, s₀.next.number ≤ member.number) :
    s₀.Evolves (s.setMembers id members) where
  toExtends := h.toExtends.trans (.setMembers stored hk hr unknown)
  noted {other l} known := by
    rw [members?_setMembers stored hk hr] at known
    by_cases same : id = other
    · rw [if_pos same] at known
      exact .inr (Option.some.inj known ▸ new)
    · rw [if_neg same] at known
      exact h.noted known
  fresh hd := by
    obtain ⟨d, hd, -⟩ := exists_get?_of_setMembers stored hk hr hd
    exact h.fresh hd
  found classId := by
    rw [findClass?_setMembers stored hk hr]
    refine (h.found classId).imp_right ?_
    rintro ⟨other, data', found, isClass, new⟩
    obtain ⟨data'', isClass', -⟩ := (Extends.setMembers stored hk hr unknown).isClass isClass
    exact ⟨other, data'', found, isClass', new⟩

theorem WellFormed.setMembers (h : s.WellFormed) : (s.setMembers id members).WellFormed := by
  have get? := @get?_setMembers s id declaration data reading members stored hk hr
  have next := @next_setMembers s id declaration data reading members stored hk hr
  constructor
  · intro other d hd
    rw [get?] at hd
    by_cases e : id = other
    · rw [if_pos e] at hd
      obtain rfl := Option.some.inj hd
      exact (h.keyed stored : declaration.id = id).trans e
    · rw [if_neg e] at hd
      exact h.keyed hd
  · intro other d hd
    rw [get?] at hd
    rw [next]
    by_cases e : id = other
    · exact e ▸ h.allocated stored
    · rw [if_neg e] at hd
      exact h.allocated hd

/-- Members that are new to all lists of a store may be noted. -/
theorem Sound.setMembers (h : s.Sound)
    (allocated : ∀ member ∈ members, member.number < s.next.number)
    (new : ∀ other l, s.members? other = some l → ∀ member ∈ members, member ∉ l) :
    (s.setMembers id members).Sound := by
  have members? := @members?_setMembers s id declaration data reading members stored hk hr
  have next := @next_setMembers s id declaration data reading members stored hk hr
  refine ⟨h.toWellFormed.setMembers stored hk hr, fun {other l} known => ?_,
    fun {other other' l l'} known known' member hm hm' => ?_⟩
  · rw [members?] at known
    rw [next]
    by_cases e : id = other
    · rw [if_pos e] at known
      exact Option.some.inj known ▸ allocated
    · rw [if_neg e] at known
      exact h.listed_allocated known
  · rw [members?] at known known'
    by_cases e : id = other <;> by_cases e' : id = other'
    · exact e.symm.trans e'
    · rw [if_pos e] at known
      rw [if_neg e'] at known'
      exact absurd hm' (new other' l' known' member (Option.some.inj known ▸ hm))
    · rw [if_neg e] at known
      rw [if_pos e'] at known'
      exact absurd hm (new other l known member (Option.some.inj known' ▸ hm'))
    · rw [if_neg e] at known
      rw [if_neg e'] at known'
      exact h.one_owner known known' member hm hm'

end Note

end Operations

end Store

end ClassSymbols
