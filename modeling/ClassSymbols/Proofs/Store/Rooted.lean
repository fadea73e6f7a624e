import ClassSymbols.Proofs.Scope.Places

/-!
# Rooted stores

A store is rooted if every declaration in it has a place below a module. Ids are given out in order,
and a declaration is stored after its container, so containers have smaller ids and lead to a
module.

## Main definitions

* `Store.Rooted` — the stores in which every declaration has a place.

## Main statements

* `Store.Rooted.receive`, `Store.Rooted.setMembers` — storing declarations with places, and noting
  members of classes.
* `Store.Rooted.exists_chain` — containers lead from a module to every declaration.
-/

namespace ClassSymbols

namespace Store

/-- Whether every declaration has a place below a module and is stored after its container, classes
are found by their class ids, and the members of a class are contained in it, where they are
known. -/
structure Rooted (store : Store) : Prop extends store.WellFormed where
  first_le : DeclId.first.number ≤ store.next.number
  valid : ∀ {id declaration}, store.get? id = some declaration → DeclId.first.number ≤ id.number
  placed : ∀ {id declaration}, store.get? id = some declaration → store.Placed declaration
  older : ∀ {id declaration container}, store.get? id = some declaration →
    declaration.container = some container → container.number < id.number
  found : ∀ {classId id}, store.findClass? classId = some id →
    ∃ data, store.IsClass id data ∧ data.classId = classId
  indexed : ∀ {id data}, store.IsClass id data → (store.findClass? data.classId).isSome
  contained : ∀ {id members}, store.members? id = some members →
    ∀ member ∈ members, ∃ declaration,
      store.get? member = some declaration ∧ declaration.container = some id

variable {s : Store}

theorem Rooted.empty : Store.empty.Rooted where
  toWellFormed := .empty
  first_le := Nat.le_refl _
  valid stored := nomatch stored
  placed stored := nomatch stored
  older stored := nomatch stored
  found found := nomatch found
  indexed := fun ⟨_, stored, _⟩ => nomatch stored
  contained known := nomatch known

/-! ## Containers -/

theorem Inside.exists_get? {id : DeclId} {context : ScopeContext} (h : s.Inside id context) :
    ∃ declaration, s.get? id = some declaration := by
  cases h with
  | fragment stored _ => exact ⟨_, stored⟩
  | inner stored _ _ _ => exact ⟨_, stored⟩

/-- A declaration with a place is contained in a stored one, or in nothing. -/
theorem Placed.exists_get? {declaration : Declaration} (h : s.Placed declaration)
    {container : DeclId} (inside : declaration.container = some container) :
    ∃ outer, s.get? container = some outer := by
  cases h with
  | module _ outermost => cases outermost.symm.trans inside
  | fragment module outer _ inside' stored _ =>
    obtain rfl := Option.some.inj (inside'.symm.trans inside)
    exact ⟨outer, stored⟩
  | inner context around within =>
    obtain rfl := Option.some.inj (within.container.symm.trans inside)
    exact around.exists_get?

namespace Rooted

variable (h : s.Rooted)
include h

theorem layered : s.Layered :=
  fun stored inside => ⟨(h.placed stored).exists_get? inside, h.older stored inside⟩

/-- Containers lead from a module to every declaration. -/
theorem exists_chain {id : DeclId} {declaration : Declaration}
    (stored : s.get? id = some declaration) :
    ∃ chain, s.Chain id chain := by
  obtain ⟨n, hn⟩ : ∃ n, id.number ≤ n := ⟨_, Nat.le_refl _⟩
  induction n generalizing id declaration with
  | zero =>
    have := h.valid stored
    simp [DeclId.first] at this
    omega
  | succ n ih =>
    cases inside : declaration.container with
    | none => exact ⟨[declaration], .root stored inside ((h.placed stored).isModule_iff.2 inside)⟩
    | some container =>
      obtain ⟨⟨outer, outside⟩, older⟩ := h.layered stored inside
      obtain ⟨above, leads⟩ := ih outside (by omega)
      exact ⟨above ++ [declaration], .inner stored inside leads⟩

/-! ## Operations -/

/-- Declarations with places may be stored under new ids. -/
theorem receive {next : DeclId} {declarations : List Declaration}
    (batch : s.Batch next declarations)
    (placed : ∀ declaration ∈ declarations, s.Placed declaration) :
    (s.receive next declarations).Rooted where
  toWellFormed := h.toWellFormed.receive batch
  first_le := by
    have first := h.first_le
    have grows := batch.next_le
    rw [next_receive]
    omega
  valid := by
    intro id d stored
    rcases get?_receive_cases stored with old | ⟨hd, rfl⟩
    · exact h.valid old
    · have first := h.first_le
      have new := batch.new d hd
      omega
  placed := by
    have wider := batch.toExtends h.toWellFormed
    intro id d stored
    rcases get?_receive_cases stored with old | ⟨hd, rfl⟩
    · exact (h.placed old).mono wider.kept rfl
    · exact (placed d hd).mono wider.kept rfl
  older := by
    intro id d container stored inside
    rcases get?_receive_cases stored with old | ⟨hd, rfl⟩
    · exact h.older old inside
    · obtain ⟨outer, outside⟩ := (placed d hd).exists_get? inside
      have below := h.allocated outside
      have new := batch.new d hd
      omega
  found := by
    intro classId id found
    rcases findClass?_insertAll { s with next } declarations classId with same |
      ⟨d, hd, data, hc, e, last⟩
    · obtain ⟨data, ⟨d, stored, hc⟩, e⟩ := h.found (same.symm.trans found)
      exact ⟨data, ⟨d, (batch.get?_receive_of_old (h.allocated stored)).trans stored, hc⟩, e⟩
    · obtain rfl := Option.some.inj (last.symm.trans found)
      exact ⟨data, ⟨d, batch.get?_receive_of_mem hd, hc⟩, e⟩
  indexed := by
    rintro id data ⟨d, stored, hc⟩
    apply isSome_findClass?_insertAll
    rcases get?_receive_cases stored with old | ⟨hd, rfl⟩
    · exact .inl (h.indexed ⟨d, old, hc⟩)
    · exact .inr ⟨d, hd, data, hc, rfl⟩
  contained := by
    intro id members known member hm
    obtain ⟨d, stored, inside⟩ := h.contained (batch.members?_receive_of_some known) member hm
    exact ⟨d, (batch.get?_receive_of_old (h.allocated stored)).trans stored, inside⟩

/-- Members that are contained in a class may be noted. -/
theorem setMembers {id : DeclId} {declaration : Declaration} {data : ClassData}
    {reading : LazyMembers} {members : List DeclId} (stored : s.get? id = some declaration)
    (hk : declaration.kind = .classifier data) (hr : data.members = .deferred reading)
    (unknown : reading.loaded = none)
    (contained : ∀ member ∈ members, ∃ d, s.get? member = some d ∧ d.container = some id) :
    (s.setMembers id members).Rooted := by
  have wider : s.Extends (s.setMembers id members) := .setMembers stored hk hr unknown
  have before {other : DeclId} {d : Declaration}
    (hd : (s.setMembers id members).get? other = some d) :
      ∃ d', s.get? other = some d' ∧ d.unread = d'.unread :=
    exists_get?_of_setMembers stored hk hr hd
  exact
    { toWellFormed := h.toWellFormed.setMembers stored hk hr
      first_le := by
        rw [next_setMembers stored hk hr]
        exact h.first_le
      valid := by
        intro other d hd
        obtain ⟨d', old, -⟩ := before hd
        exact h.valid old
      placed := by
        intro other d hd
        obtain ⟨d', old, same⟩ := before hd
        exact (h.placed old).mono wider.kept same
      older := by
        intro other d container hd inside
        obtain ⟨d', old, same⟩ := before hd
        have container : d.container = d'.container :=
          Declaration.congr_unread Declaration.container_unread same
        exact h.older old (container ▸ inside)
      found := by
        intro classId other found
        rw [findClass?_setMembers stored hk hr] at found
        obtain ⟨data', isClass, e⟩ := h.found found
        obtain ⟨data'', isClass', same⟩ := wider.isClass isClass
        exact ⟨data'', isClass', (ClassData.classId_eq same).trans e⟩
      indexed := by
        rintro other data' ⟨d, hd, hc⟩
        obtain ⟨d', old, same⟩ := before hd
        obtain ⟨data'', hc', e⟩ := Declaration.exists_class?_of_unread_eq same.symm hc
        rw [findClass?_setMembers stored hk hr, ← ClassData.classId_eq e]
        exact h.indexed ⟨d', old, hc'⟩
      contained := by
        intro other l known member hm
        obtain ⟨d, old, inside⟩ : ∃ d, s.get? member = some d ∧ d.container = some other := by
          rw [members?_setMembers stored hk hr] at known
          by_cases same : id = other
          · rw [if_pos same] at known
            exact same ▸ contained member (Option.some.inj known ▸ hm)
          · rw [if_neg same] at known
            exact h.contained known member hm
        obtain ⟨d', hd, same⟩ := wider.kept old
        exact ⟨d', hd, (Declaration.congr_unread Declaration.container_unread same).trans inside⟩ }

end Rooted

end Store

end ClassSymbols
