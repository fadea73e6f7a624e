import ClassSymbols.Proofs.Loading.Contexts
import ClassSymbols.Proofs.Loading.Counterparts

/-!
# Twins and the contexts inside them

A record that is read inside two declarations gives twins if the contexts there are the same up to a
renaming, and the contexts inside the twins are the same up to this renaming again. So a local
declaration can be resolved inside twins, one inside the other, and gives twins at each level.

## Main definitions

* `Store.ReadInside` — whether a declaration was read from a record inside another one.

## Main statements

* `Store.ReadInside.twin` — what is read from one record inside twins is a pair of twins.
* `Store.ReadInside.inside_rename` — the contexts inside them.
* `Store.Explored.inside_rename` — the contexts inside declarations that were there from the start.
-/

namespace ClassSymbols

open Relation Store

variable {f : DeclId → DeclId}

/-! ## Contexts inside renamed declarations -/

theorem ScopeContext.rename_inside (context : ScopeContext) (declaration : Declaration) :
    (context.inside declaration).rename f = (context.rename f).inside (declaration.rename f) := by
  have types : (declaration.rename f).class?.map (·.types) = declaration.class?.map (·.types) := by
    rw [Declaration.class?_rename, Option.map_map]
    rfl
  rw [inside, rename_enter, inside, types, Declaration.typeParameters_rename]
  rfl

theorem ScopeContext.inside_of_constructor (context : ScopeContext) {declaration : Declaration}
    {data : ConstructorData} (h : declaration.kind = .constructor data) :
    context.inside declaration = context.enter declaration.id [] none := by
  simp [inside, Declaration.typeParameters, Declaration.class?, h]

theorem Declaration.asVariable_rename (declaration : Declaration) :
    (declaration.rename f).asVariable = declaration.asVariable.rename f := by
  obtain ⟨_, _, _, _, _, kind⟩ := declaration
  cases kind <;> rfl

theorem Declaration.asVariable_of_constructor {declaration : Declaration} {data : ConstructorData}
    (h : declaration.kind = .constructor data) : declaration.asVariable = declaration := by
  simp [asVariable, h]

namespace Store

variable {s t : Store} {outer outer' x y : DeclId} {context : ScopeContext} {record : MemberRecord}
  {isVariable : Bool}

/-- A declaration that is contained in one with a context inside it is neither a module nor a
package fragment. -/
theorem Placed.isInner_of_inside {declaration : Declaration} (h : s.Placed declaration)
    (contained : declaration.container = some outer) (inside : s.Inside outer context) :
    declaration.isInner = true := by
  cases h with
  | module _ outermost => cases outermost.symm.trans contained
  | inner _ _ within => exact within.inner
  | fragment module d _ contained' stored outermost =>
    obtain rfl := Option.some.inj (contained'.symm.trans contained)
    cases inside with
    | fragment stored' package =>
      obtain rfl := Option.some.inj (stored.symm.trans stored')
      simp [Declaration.isModule, Declaration.kind_eq_of_package? package] at outermost
    | inner stored' inner _ _ =>
      obtain rfl := Option.some.inj (stored.symm.trans stored')
      simp [Declaration.isInner, outermost] at inner

/-! ## Records that are read inside declarations -/

/-- Whether a declaration was read from a record in the context inside another one, as it is or as a
local variable. -/
structure ReadInside (store : Store) (outer : DeclId) (context : ScopeContext)
    (record : MemberRecord) (isVariable : Bool) (id : DeclId) : Prop where
  inside : store.Inside outer context
  read : ∃ declaration read, store.get? id = some declaration ∧ declaration.container = some outer ∧
    record.Describes context read ∧ read.id = id ∧
    declaration.unread = if isVariable then read.asVariable else read

namespace ReadInside

variable (h : s.ReadInside outer context record isVariable x)
  (h' : t.ReadInside outer' (context.rename f) record isVariable y) (same : f x = y)
include h h' same

/-- What was read from one record in a context and in the renamed context is the renamed
declaration, or both are constructors. -/
theorem rename_cases :
    ∃ declaration declaration', s.get? x = some declaration ∧ t.get? y = some declaration' ∧
    declaration.container = some outer ∧ declaration'.container = some outer' ∧
    (declaration'.unread = declaration.unread.rename f ∨
      declaration'.unread.name = declaration.unread.name ∧
      ∃ data data', declaration.unread.kind = .constructor data ∧
        declaration'.unread.kind = .constructor data') := by
  obtain ⟨declaration, read, stored, contained, describes, rfl, unread⟩ := h.read
  obtain ⟨declaration', read', stored', contained', describes', own, unread'⟩ := h'.read
  refine ⟨declaration, declaration', stored, stored', contained, contained', ?_⟩
  rw [unread, unread']
  rcases MemberRecord.Describes.rename_cases describes describes' (own.trans same.symm) with rfl |
    ⟨name, data, data', kind, kind'⟩
  · left
    cases isVariable with
    | false => rfl
    | true => exact read.asVariable_rename
  · right
    rw [Declaration.asVariable_of_constructor kind, Declaration.asVariable_of_constructor kind',
      ite_self, ite_self]
    exact ⟨name, data, data', kind, kind'⟩

/-- What is read from one record inside twins is a pair of twins. -/
theorem twin (hs : s.WellFormed) (ht : t.WellFormed) :
    Option.Rel (Declaration.Twin f) (s.get? x) (t.get? y) := by
  obtain ⟨declaration, declaration', stored, stored', -, -, cases⟩ := h.rename_cases h' same
  rw [stored, stored']
  rcases cases with e | ⟨name, data, data', kind, kind'⟩
  · exact .some (Declaration.twin_of_unread e)
  · rw [Declaration.name_unread, Declaration.name_unread] at name
    refine .some (Declaration.twin_of_isOther (Declaration.isOther_of_constructor kind)
      (Declaration.isOther_of_constructor kind') ?_ name)
    rw [hs.keyed stored, ht.keyed stored', same]

/-- The contexts inside what is read from one record inside twins are the same up to the
renaming. -/
theorem inside_rename (hs : s.Rooted) (ht : t.Rooted) {within : ScopeContext}
    (inside : s.Inside x within) :
    t.Inside y (within.rename f) := by
  obtain ⟨declaration, declaration', stored, stored', contained, contained', cases⟩ :=
    h.rename_cases h' same
  have inner := (hs.placed stored).isInner_of_inside contained h.inside
  have inner' := (ht.placed stored').isInner_of_inside contained' h'.inside
  obtain rfl := inside.unique (.inner stored inner contained h.inside)
  have renamed : (context.inside declaration).rename f =
      (context.rename f).inside declaration' := by
    rw [← Declaration.inside_unread declaration, ← Declaration.inside_unread declaration']
    rcases cases with e | ⟨-, data, data', kind, kind'⟩
    · rw [e, ScopeContext.rename_inside]
    · have own : declaration'.unread.id = f declaration.unread.id := by
        rw [Declaration.id_unread, Declaration.id_unread, hs.keyed stored, ht.keyed stored', same]
      rw [ScopeContext.inside_of_constructor context kind,
        ScopeContext.inside_of_constructor _ kind', ScopeContext.rename_enter, own]
      rfl
  rw [renamed]
  exact .inner stored' inner' contained' h'.inside

end ReadInside

/-- A member that was read from the record of a class was read inside the class. -/
theorem Stores.readInside (hs : s.Rooted) {data : ClassData} {reading : LazyMembers}
    {xs : List DeclId} (isClass : s.IsClass outer data) (hr : data.members = .deferred reading)
    (known : s.members? outer = some xs) (listed : x ∈ xs)
    (stores : s.Stores reading.context record x) :
    s.ReadInside outer reading.context record false x := by
  obtain ⟨reading', hr', inside⟩ := hs.inside_of_deferred isClass
  obtain rfl := ClassMembers.deferred.inj (hr.symm.trans hr')
  obtain ⟨declaration, stored, describes⟩ := stores
  obtain ⟨_, stored', contained⟩ := hs.contained known x listed
  obtain rfl := Option.some.inj (stored.symm.trans stored')
  refine ⟨inside, declaration, declaration.unread, stored, contained, describes, ?_, rfl⟩
  rw [Declaration.id_unread, hs.keyed stored]

/-! ## What was there from the start -/

/-- The context inside a declaration that was there from the start stays, and refers to nothing
else. -/
theorem Explored.inside_rename {origin : Store} (hs : origin.Explored s) (ht : origin.Explored t)
    (recorded : origin.Recorded) (fixed : ∀ id, id.number < origin.next.number → f id = id)
    (below : x.number < origin.next.number) {within : ScopeContext} (inside : s.Inside x within) :
    t.Inside x (within.rename f) := by
  obtain ⟨old, old_inside⟩ : ∃ context, origin.Inside x context := by
    cases inside with
    | fragment stored package =>
      obtain ⟨old, ho, same⟩ := hs.exists_old stored below
      exact ⟨_,
        .fragment ho
        ((Declaration.congr_unread Declaration.package?_unread same).symm.trans package)⟩
    | inner stored inner _ _ =>
      obtain ⟨old, ho, same⟩ := hs.exists_old stored below
      have inner := (Declaration.congr_unread Declaration.isInner_unread same).symm.trans inner
      obtain ⟨context, around, own⟩ := (recorded.placed ho).exists_within inner
      exact ⟨_, .inner ho own.inner own.container around⟩
  obtain rfl := inside.unique (old_inside.mono hs.evolves.kept)
  have owned :=
    (recorded.owned_of_inside old_inside).mono fun id le => fixed id (Nat.lt_of_le_of_lt le below)
  rw [owned.rename_eq_self]
  exact old_inside.mono ht.evolves.kept

end Store

end ClassSymbols
