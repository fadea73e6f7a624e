import ClassSymbols.Proofs.Data.Related
import ClassSymbols.Proofs.Loading.Modules
import ClassSymbols.Proofs.Loading.Renaming

/-!
# Counterparts

The members of a class have the ids that are next when they are read, so one member of one module
may have different ids in two stores. Counterparts are declarations that were there from the start,
and members at one position of counterparts. A renaming that takes each declaration to its
counterpart renames all that was read.

## Main definitions

* `Counterpart` — whether two ids are those of one declaration.
* `Declaration.Twin` — whether a declaration is another one after a renaming.
* `Store.Explored` — stores that were reached from the store of a loaded module.

## Main statements

* `Counterpart.unique` — a declaration has at most one counterpart.
* `Counterpart.twin` — counterparts are renamed declarations.
* `Counterpart.members` — the members of counterparts are counterparts.
-/

namespace ClassSymbols

/-- Whether two ids are those of one declaration in two stores: one that was there when the ids
below a bound had been given out, or the members at one position of the lists of one class. -/
inductive Counterpart (bound : DeclId) (s t : Store) : DeclId → DeclId → Prop
  | shared {id : DeclId} : id.number < bound.number → Counterpart bound s t id id
  | member {a b x y : DeclId} {xs ys : List DeclId} {i : Nat} : Counterpart bound s t a b →
      s.members? a = some xs → t.members? b = some ys → xs[i]? = some x → ys[i]? = some y →
      Counterpart bound s t x y

/-! ## Twins -/

@[simp] theorem Declaration.isCallable_rename (f : DeclId → DeclId) (declaration : Declaration) :
    (declaration.rename f).isCallable = declaration.isCallable := by
  obtain ⟨_, _, _, _, _, kind⟩ := declaration
  cases kind <;> rfl

/-- Whether a declaration is another one after a renaming, as far as overriding and the reading of
members are concerned. What the declarations themselves say about overriding is left out. -/
structure Declaration.Twin (f : DeclId → DeclId) (declaration twin : Declaration) : Prop where
  id : twin.id = f declaration.id
  name : twin.name = declaration.name
  callable : twin.isCallable = declaration.isCallable
  eq : declaration.isCallable = true → twin.silent = declaration.silent.rename f
  class? : twin.class?.map ClassData.unread =
    (declaration.class?.map ClassData.unread).map (ClassData.rename f)

namespace Declaration

variable {f : DeclId → DeclId} {declaration twin : Declaration}

theorem twin_of_unread (h : twin.unread = declaration.unread.rename f) :
    declaration.Twin f twin where
  id := by rw [← id_unread twin, h, ← id_unread declaration]; rfl
  name := by rw [← name_unread twin, h, ← name_unread declaration]; rfl
  callable := by rw [← isCallable_unread twin, h, isCallable_rename, isCallable_unread]
  eq callable := by
    have plain := class?_eq_none_of_isCallable callable
    have plain' : twin.class? = none := by
      refine class?_eq_none_of_isCallable ?_
      rw [← isCallable_unread, h, isCallable_rename, isCallable_unread, callable]
    rw [unread_of_class?_eq_none plain, unread_of_class?_eq_none plain'] at h
    rw [h, silent_rename]
  class? := by rw [← class?_unread, h, class?_rename, class?_unread]

theorem Twin.congr (h : declaration.Twin f twin) {other other' : Declaration}
    (same : other.unread = declaration.unread) (same' : other'.unread = twin.unread) :
    other.Twin f other' := by
  have callable : other.isCallable = declaration.isCallable := congr_unread isCallable_unread same
  have callable' : other'.isCallable = twin.isCallable := congr_unread isCallable_unread same'
  refine ⟨?_, ?_, ?_, fun own => ?_, ?_⟩
  · rw [congr_unread id_unread same', h.id, congr_unread id_unread same]
  · rw [congr_unread name_unread same', h.name, congr_unread name_unread same]
  · rw [callable, callable', h.callable]
  · have own' := callable ▸ own
    have e := eq_of_unread_eq same (class?_eq_none_of_isCallable own')
    have e' := eq_of_unread_eq same' (class?_eq_none_of_isCallable (h.callable.trans own'))
    rw [e, e', h.eq own']
  · rw [← class?_unread, ← class?_unread, same, same', class?_unread, class?_unread, h.class?]

theorem twin_of_isOther (other : declaration.IsOther) (other' : twin.IsOther)
    (id : twin.id = f declaration.id) (name : twin.name = declaration.name) :
    declaration.Twin f twin where
  id := id
  name := name
  callable := other'.2.trans other.2.symm
  eq callable := by simp [other.2] at callable
  class? := by rw [other.1, other'.1]; rfl

theorem Twin.class?_eq (h : declaration.Twin f twin) {data : ClassData}
    (hc : declaration.class? = some data) :
    ∃ data', twin.class? = some data' ∧ data'.unread = data.unread.rename f := by
  have same := h.class?
  rw [hc] at same
  exact Option.map_eq_some_iff.1 same

end Declaration

section Described

variable {f : DeclId → DeclId} {declaration twin : Declaration}

/-- What one record describes in a context and in the renamed context is the renamed declaration, or
both are constructors. -/
theorem MemberRecord.Describes.rename_cases {context : ScopeContext} {record : MemberRecord}
    (h : record.Describes context declaration) (h' : record.Describes (context.rename f) twin)
    (id : twin.id = f declaration.id) : twin = declaration.rename f ∨
      twin.name = declaration.name ∧
      ∃ data data', declaration.kind = .constructor data ∧ twin.kind = .constructor data' := by
  cases record with
  | constructor record =>
    obtain ⟨name, data, kind⟩ := h
    obtain ⟨name', data', kind'⟩ := h'
    exact .inr ⟨name'.trans name.symm, data, data', kind, kind'⟩
  | function record =>
    obtain ⟨path, read⟩ := h
    obtain ⟨path', read'⟩ := h'
    rw [id, Site.readFunction_rename, Site.readFunction_of_path read] at read'
    exact .inl (Except.ok.inj read').symm
  | property record =>
    obtain ⟨path, read⟩ := h
    obtain ⟨path', read'⟩ := h'
    rw [id, Site.readProperty_rename, Site.readProperty_of_path read] at read'
    exact .inl (Except.ok.inj read').symm
  | classifier record =>
    obtain ⟨path, read⟩ := h
    obtain ⟨path', read'⟩ := h'
    rw [id, Site.readClass_rename, Site.readClass_of_path read] at read'
    exact .inl (Except.ok.inj read').symm

theorem Declaration.isOther_of_constructor {data : ConstructorData}
    (h : declaration.unread.kind = .constructor data) :
    declaration.IsOther := by
  obtain ⟨_, _, _, _, _, kind⟩ := declaration
  cases kind with
  | constructor data' => exact ⟨rfl, rfl⟩
  | _ => cases h

/-- What one record describes in a context and in the renamed context is a pair of twins. -/
theorem Declaration.twin_of_describes {context : ScopeContext} {record : MemberRecord}
    (h : record.Describes context declaration.unread)
    (h' : record.Describes (context.rename f) twin.unread) (id : twin.id = f declaration.id) :
    declaration.Twin f twin := by
  rcases h.rename_cases h' (by rw [id_unread, id_unread, id]) with same |
    ⟨name, data, data', kind, kind'⟩
  · exact twin_of_unread same
  · rw [name_unread, name_unread] at name
    exact twin_of_isOther (isOther_of_constructor kind) (isOther_of_constructor kind') id name

end Described

/-! ## Explored stores -/

/-- Whether a store was reached from the store of a module that had just been loaded. -/
structure Store.Explored (origin store : Store) : Prop where
  loaded : origin.Loaded
  evolves : origin.Evolves store
  sound : store.Sound
  described : store.Described

namespace Store.Explored

variable {origin store : Store} (h : origin.Explored store)
include h

theorem le_of_listed {id member : DeclId} {members : List DeclId}
    (known : store.members? id = some members) (hm : member ∈ members) :
    origin.next.number ≤ member.number := by
  rcases h.evolves.noted known with old | new
  · simp [h.loaded.members?_eq_none id] at old
  · exact new member hm

theorem nodup {id : DeclId} {members : List DeclId} (known : store.members? id = some members) :
    members.Nodup := by
  obtain ⟨data, stored, known⟩ := members?_eq_some_iff.1 known
  obtain ⟨reading, deferred, described⟩ := h.described.members stored
  rw [deferred] at known
  exact (described members known).1

theorem exists_old {id : DeclId} {declaration : Declaration}
    (stored : store.get? id = some declaration) (below : id.number < origin.next.number) :
    ∃ old, origin.get? id = some old ∧ declaration.unread = old.unread := by
  rcases h.evolves.fresh stored with ⟨old, ho⟩ | new
  · obtain ⟨declaration', stored', same⟩ := h.evolves.kept ho
    obtain rfl := Option.some.inj (stored.symm.trans stored')
    exact ⟨old, ho, same⟩
  · omega

/-- A member is in one list, at one position. -/
theorem eq_of_listed {a b x : DeclId} {xs ys : List DeclId} {i j : Nat}
    (known : store.members? a = some xs) (known' : store.members? b = some ys)
    (at_i : xs[i]? = some x) (at_j : ys[j]? = some x) :
    a = b ∧ xs = ys ∧ i = j := by
  obtain rfl :=
    h.sound.one_owner known known' x (List.mem_of_getElem? at_i) (List.mem_of_getElem? at_j)
  obtain rfl := Option.some.inj (known.symm.trans known')
  obtain ⟨bound, -⟩ := List.getElem?_eq_some_iff.1 at_i
  exact ⟨rfl, rfl, (List.getElem?_inj bound (h.nodup known)).1 (at_i.trans at_j.symm)⟩

/-- What was stored from the start is its own twin in all stores that were reached. -/
theorem twin_of_old {t : Store} (ht : origin.Explored t) {f : DeclId → DeclId}
    (fixed : ∀ x, x.number < origin.next.number → f x = x) {id : DeclId}
    (below : id.number < origin.next.number) :
    Option.Rel (Declaration.Twin f) (store.get? id) (t.get? id) := by
  cases stored : store.get? id with
  | none =>
    cases stored' : t.get? id with
    | none => exact .none
    | some declaration' =>
      obtain ⟨old, ho, -⟩ := ht.exists_old stored' below
      obtain ⟨declaration, stored'', -⟩ := h.evolves.kept ho
      simp [stored] at stored''
  | some declaration =>
    obtain ⟨old, ho, same⟩ := h.exists_old stored below
    obtain ⟨declaration', stored', same'⟩ := ht.evolves.kept ho
    rw [stored']
    obtain rfl := h.loaded.keyed ho
    have twin : old.Twin f old := by
      rcases h.loaded.cases ho with other | ⟨fragment, names, types, path, record, below', read⟩
      · exact Declaration.twin_of_isOther other other (fixed _ below).symm rfl
      · have context : (ScopeContext.ofFragment fragment names types).rename f =
            .ofFragment fragment names types := by
          simp [ScopeContext.rename, ScopeContext.ofFragment, fixed _ below', ParameterScope.rename,
            ParameterScope.empty]
        have again : Site.readClass ⟨(ScopeContext.ofFragment fragment names types).rename f, path⟩
            (f old.id) record = .ok (old.rename f) := by
          rw [Site.readClass_rename, read]
          rfl
        rw [context, fixed _ below, read] at again
        exact Declaration.twin_of_unread
          (by rw [← Declaration.unread_rename, ← Except.ok.inj again])
    exact .some (twin.congr same same')

end Store.Explored

/-! ## Members of twins -/

/-- What was read from one record in a context and in the renamed context is a pair of twins. -/
theorem Store.Stores.twin {s t : Store} {f : DeclId → DeclId} {context : ScopeContext}
    {record : MemberRecord} {x y : DeclId} (hs : s.WellFormed) (ht : t.WellFormed)
    (h : s.Stores context record x) (h' : t.Stores (context.rename f) record y) (same : f x = y) :
    Option.Rel (Declaration.Twin f) (s.get? x) (t.get? y) := by
  obtain ⟨declaration, stored, describes⟩ := h
  obtain ⟨declaration', stored', describes'⟩ := h'
  rw [stored, stored']
  refine .some (Declaration.twin_of_describes describes describes' ?_)
  rw [hs.keyed stored, ht.keyed stored', same]

/-- The members of twins were read from one record, in a context and in the renamed context. -/
theorem exists_reading {s t : Store} {f : DeclId → DeclId} {a b : DeclId} {xs ys : List DeclId}
    (hs : s.Described) (ht : t.Described)
    (twins : Option.Rel (Declaration.Twin f) (s.get? a) (t.get? b)) (known : s.members? a = some xs)
    (known' : t.members? b = some ys) : ∃ data data' reading reading',
      s.IsClass a data ∧ data.members = .deferred reading ∧ t.IsClass b data' ∧
      data'.members = .deferred reading' ∧
      reading'.context = reading.context.rename f ∧
      List.Forall₂ (s.Stores reading.context) reading.record.members xs ∧
      List.Forall₂ (t.Stores reading'.context) reading.record.members ys := by
  obtain ⟨data, isClass, known⟩ := Store.members?_eq_some_iff.1 known
  obtain ⟨data', isClass', known'⟩ := Store.members?_eq_some_iff.1 known'
  obtain ⟨reading, deferred, described⟩ := hs.members isClass
  obtain ⟨reading', deferred', described'⟩ := ht.members isClass'
  refine ⟨data, data', reading, reading', isClass, deferred, isClass', deferred', ?_⟩
  obtain ⟨declaration, stored, hc⟩ := isClass
  obtain ⟨declaration', stored', hc'⟩ := isClass'
  rw [stored, stored'] at twins
  obtain ⟨_, hc'', same⟩ := (Option.rel_some_some.1 twins).class?_eq hc
  obtain rfl := Option.some.inj (hc'.symm.trans hc'')
  have members := congrArg ClassData.members same
  simp only [ClassData.unread, ClassData.rename, deferred, deferred', ClassMembers.unread,
    ClassMembers.rename, ClassMembers.deferred.injEq, LazyMembers.mk.injEq] at members
  obtain ⟨record, context, -⟩ := members
  rw [deferred] at known
  rw [deferred'] at known'
  exact ⟨context, (described xs known).2, record ▸ (described' ys known').2⟩

/-! ## Counterparts -/

namespace Counterpart

variable {bound : DeclId} {origin s t : Store} {x y : DeclId}

theorem symm (h : Counterpart bound s t x y) : Counterpart bound t s y x := by
  induction h with
  | shared below => exact .shared below
  | member _ hx hy at_x at_y ih => exact .member ih hy hx at_y at_x

section Explored

variable (hs : origin.Explored s) (ht : origin.Explored t)
include hs

/-- A declaration has at most one counterpart. -/
theorem unique {y' : DeclId} (h : Counterpart origin.next s t x y)
    (h' : Counterpart origin.next s t x y') :
    y = y' := by
  induction h generalizing y' with
  | shared below =>
    cases h' with
    | shared => rfl
    | member _ known _ at_x _ =>
      have := hs.le_of_listed known (List.mem_of_getElem? at_x)
      omega
  | @member a b x y xs ys i _ known known' at_x at_y ih =>
    cases h' with
    | shared below =>
      have := hs.le_of_listed known (List.mem_of_getElem? at_x)
      omega
    | member pair again again' at_x' at_y' =>
      obtain ⟨rfl, rfl, rfl⟩ := hs.eq_of_listed known again at_x at_x'
      obtain rfl := ih pair
      obtain rfl := Option.some.inj (known'.symm.trans again')
      exact Option.some.inj (at_y.symm.trans at_y')

include ht

omit hs in
theorem lt_next (h : Counterpart origin.next s t x y) : y.number < t.next.number := by
  cases h with
  | shared below => exact Nat.lt_of_lt_of_le below ht.evolves.next_le
  | member _ _ known' _ at_y => exact ht.sound.listed_allocated known' _ (List.mem_of_getElem? at_y)

variable {f : DeclId → DeclId} (renames : ∀ {x y}, Counterpart origin.next s t x y → f x = y)
include renames

/-- Counterparts are stored or not in both stores, and renamed declarations if they are. -/
theorem twin (h : Counterpart origin.next s t x y) :
    Option.Rel (Declaration.Twin f) (s.get? x) (t.get? y) := by
  induction h with
  | shared below => exact hs.twin_of_old ht (fun _ below => renames (.shared below)) below
  | @member a b x y xs ys i pair known known' at_x at_y ih =>
    obtain ⟨_, _, reading, _, -, -, -, -, context, described, described'⟩ :=
      exists_reading hs.described ht.described ih known known'
    obtain ⟨record, found, stores⟩ := exists_getElem?_of_forall₂ described.flip at_x
    obtain ⟨_, at_y', stores'⟩ := exists_getElem?_of_forall₂ described' found
    obtain rfl := Option.some.inj (at_y.symm.trans at_y')
    exact Store.Stores.twin hs.sound.toWellFormed ht.sound.toWellFormed stores (context ▸ stores')
      (renames (.member pair known known' at_x at_y))

/-- The members of counterparts are counterparts. -/
theorem members {a b : DeclId} {xs ys : List DeclId} (h : Counterpart origin.next s t a b)
    (known : s.members? a = some xs) (known' : t.members? b = some ys) :
    List.Forall₂ (Counterpart origin.next s t) xs ys := by
  obtain ⟨_, _, _, _, -, -, -, -, -, described, described'⟩ :=
    exists_reading hs.described ht.described (h.twin hs ht renames) known known'
  refine List.forall₂_iff_get.2 ⟨described.length_eq.symm.trans described'.length_eq,
    fun i below below' => ?_⟩
  exact .member h known known' (List.getElem?_eq_getElem below) (List.getElem?_eq_getElem below')

end Explored

end Counterpart

end ClassSymbols
