import ClassSymbols.Proofs.Store.Ownership
import Mathlib.Data.List.Chain

/-!
# Following containers

Any declarations may be stored, with any containers. From a declaration, these end at a declaration
without a container, lead to an id under which nothing is stored, or go round a cycle. The ownership
chain of the declaration is what they lead through, if they end at a module and that is not too far
away.

## Main definitions

* `Store.Built` — the stores that there are.
* `Store.ancestor?` — the declaration some containers away.

## Main statements

* `Store.Chain.getElem?_reverse` — a chain is what the containers lead through.
* `ownershipChain_exact` — when the chain of a declaration is found, and what it is.
-/

namespace ClassSymbols

open Store

namespace Store

/-- The stores that there are: any declarations may be stored, under their own ids. -/
inductive Built : Store → Prop
  | empty : Built .empty
  | insert {store : Store} (declaration : Declaration) :
    Built store → Built (store.insert declaration)
  | reserve {store : Store} : Built store → Built store.reserve
  | setMembers {store : Store} (id : DeclId) (members : List DeclId) :
    Built store → Built (store.setMembers id members)

def ancestor? (store : Store) : Nat → DeclId → Option Declaration
  | 0, id => store.get? id
  | links + 1, id =>
    (store.get? id).bind fun declaration => declaration.container.bind (store.ancestor? links)

variable {store : Store} {id : DeclId} {chain : List Declaration}

/-! ## Stores -/

theorem Built.insertAll (built : store.Built) (declarations : List Declaration) :
    (store.insertAll declarations).Built := by
  induction declarations generalizing store with
  | nil => exact built
  | cons declaration _ ih => exact ih (built.insert declaration)

theorem Built.keyed (built : store.Built) {id : DeclId} {declaration : Declaration}
    (stored : store.get? id = some declaration) : declaration.id = id := by
  induction built generalizing id declaration with
  | empty => cases stored
  | insert other _ ih =>
    rw [get?_insert] at stored
    split at stored
    · next own => exact Option.some.inj stored ▸ own
    · exact ih stored
  | reserve _ ih => exact ih stored
  | setMembers other members _ ih =>
    unfold Store.setMembers at stored
    split at stored
    · next noted found =>
      split at stored
      · split at stored
        · simp only [get?, DeclMap.get?_insert] at stored
          split at stored
          · next own => exact Option.some.inj stored ▸ (ih found).trans own
          · exact ih stored
        · exact ih stored
      · exact ih stored
    · exact ih stored

/-! ## Chains -/

/-- From its end, a chain is what the containers lead through. -/
theorem Chain.getElem?_reverse (h : store.Chain id chain) (links : Nat) :
    chain.reverse[links]? = store.ancestor? links id := by
  induction h generalizing links with
  | root stored outermost _ => cases links <;> simp [ancestor?, stored, outermost]
  | inner stored inside _ ih => cases links <;> simp [ancestor?, stored, inside, ih]

/-- There is a chain if containers lead to a module without one. -/
theorem exists_chain_of_ancestor? {links : Nat} {root : Declaration}
    (leads : store.ancestor? links id = some root) (outermost : root.container = none)
    (module : root.isModule = true) :
    ∃ chain, store.Chain id chain ∧ chain.length = links + 1 := by
  induction links generalizing id with
  | zero => exact ⟨[root], .root leads outermost module, rfl⟩
  | succ links ih =>
    obtain ⟨declaration, stored, leads⟩ := Option.bind_eq_some_iff.1 leads
    obtain ⟨container, inside, leads⟩ := Option.bind_eq_some_iff.1 leads
    obtain ⟨above, chained, length⟩ := ih leads
    exact ⟨above ++ [declaration], .inner stored inside chained,
      by rw [List.length_append, length]; rfl⟩

section Keyed

variable (keyed : ∀ {id declaration}, store.get? id = some declaration → declaration.id = id)
include keyed

/-- Each declaration of a chain contains the next one. -/
theorem Chain.isChain (h : store.Chain id chain) :
    chain.IsChain fun outer inner => inner.container = some outer.id := by
  induction h with
  | root _ _ _ => exact .singleton _
  | @inner id container declaration above _ inside outer ih =>
    obtain ⟨before, last, rfl, stored⟩ := outer.exists_concat
    refine List.isChain_append.2 ⟨ih, .singleton _, fun d hd e he => ?_⟩
    obtain rfl : last = d := by simpa using hd
    obtain rfl : declaration = e := by simpa using he
    rw [inside, keyed stored]

/-- A chain leads through no declaration twice iff the containers do not. -/
theorem Chain.nodup_iff (h : store.Chain id chain) : (chain.map (·.id)).Nodup ↔
    ∀ i j, i < j → j < chain.length → store.ancestor? i id ≠ store.ancestor? j id := by
  rw [← List.nodup_reverse, ← List.map_reverse, List.nodup_iff_getElem?_ne_getElem?]
  simp only [List.length_map, List.length_reverse, List.getElem?_map, h.getElem?_reverse]
  constructor
  · intro distinct i j before inside same
    exact distinct i j before inside (by rw [same])
  · -- under one id there is one declaration
    intro distinct i j before inside same
    have found {k : Nat} (short : k < chain.length) :
        ∃ declaration, store.ancestor? k id = some declaration ∧
          store.get? declaration.id = some declaration := by
      have listed := List.getElem?_eq_getElem (chain.length_reverse ▸ short)
      rw [h.getElem?_reverse] at listed
      exact ⟨_, listed, h.stored keyed _ (List.mem_reverse.1 (List.getElem_mem _))⟩
    obtain ⟨a, ha, storedA⟩ := found (before.trans inside)
    obtain ⟨b, hb, storedB⟩ := found inside
    rw [ha, hb, Option.map_some, Option.map_some, Option.some_inj] at same
    rw [same, storedB] at storedA
    exact distinct i j before inside (by rw [ha, hb, storedA])

end Keyed

end Store

/-- Following containers from a declaration meets stored and different declarations only, and
reaches, as one of the first 256, a module without a container, iff the ownership chain of the
declaration is found. The chain is then what is met on the way. It starts at the module and ends at
the declaration, no declaration is in it twice, and each one contains the next one. -/
theorem ownershipChain_exact {store : Store} (built : store.Built) (id : DeclId) :
    ((∃ chain, store.ownershipChain id = .ok chain) ↔ ∃ links < 256,
      (∀ i ≤ links, ∃ declaration, store.ancestor? i id = some declaration) ∧
      (∀ i j, i < j → j ≤ links → store.ancestor? i id ≠ store.ancestor? j id) ∧
      ∃ root, store.ancestor? links id = some root ∧ root.container = none ∧ root.isModule = true) ∧
    ∀ chain, store.ownershipChain id = .ok chain →
      (∃ module rest, chain = module :: rest ∧ module.isModule = true ∧ module.container = none) ∧
      (∃ above declaration, chain = above ++ [declaration] ∧ declaration.id = id ∧
        store.get? id = some declaration) ∧
      (chain.map (·.id)).Nodup ∧
      (chain.IsChain fun outer inner => inner.container = some outer.id) ∧
      ∀ links, chain.reverse[links]? = store.ancestor? links id := by
  constructor
  · constructor
    · rintro ⟨chain, found⟩
      obtain ⟨h, short, distinct⟩ := ownershipChain_eq_ok_iff.1 found
      obtain ⟨module, rest, rfl, first, outermost⟩ := h.exists_outermost
      have met := h.getElem?_reverse
      refine ⟨rest.length, short,
        fun i le => ?_, fun i j before le => ?_, module, ?_, outermost, first⟩
      · rw [← met]
        exact ⟨_, List.getElem?_eq_getElem (by simp; omega)⟩
      · exact (h.nodup_iff built.keyed).1 distinct i j before (Nat.lt_succ_of_le le)
      · rw [← met]
        simp
    · rintro ⟨links, short, -, distinct, root, leads, outermost, module⟩
      obtain ⟨chain, h, length⟩ := exists_chain_of_ancestor? leads outermost module
      refine ⟨chain, ownershipChain_eq_ok_iff.2 ⟨h, length ▸ short, (h.nodup_iff built.keyed).2 ?_⟩⟩
      intro i j before inside
      exact distinct i j before (by omega)
  · intro chain found
    obtain ⟨h, -, distinct⟩ := ownershipChain_eq_ok_iff.1 found
    obtain ⟨above, declaration, ends, stored⟩ := h.exists_concat
    exact ⟨h.exists_outermost, ⟨above, declaration, ends, built.keyed stored, stored⟩, distinct,
      h.isChain built.keyed, h.getElem?_reverse⟩

/-- A module with a class, which has a type parameter holder, and two holders that contain each
other. -/
def crookedStore : Store := Store.empty.insertAll [
  { id := ⟨1⟩, name := "m", container := none, kind := .module },
  { id := ⟨2⟩, name := "A", container := some ⟨1⟩,
    kind := .classifier { classId := ⟨"", "A", false⟩ } },
  { id := ⟨3⟩, name := "T", container := some ⟨2⟩, kind := .holder [] },
  { id := ⟨4⟩, name := "U", container := some ⟨5⟩, kind := .holder [] },
  { id := ⟨5⟩, name := "V", container := some ⟨4⟩, kind := .holder [] }]

/-- The chain of the holder in the class has three declarations. Those that contain each other have
none. -/
theorem ownershipChain_exact_of_crookedStore : crookedStore.Built ∧
    (∃ chain, crookedStore.ownershipChain ⟨3⟩ = .ok chain ∧ (chain.map (·.id)).Nodup ∧
      chain.reverse[2]?.map (·.name) = some "m") ∧
    ¬ ∃ chain, crookedStore.ownershipChain ⟨4⟩ = .ok chain := by
  have built : crookedStore.Built := Built.empty.insertAll _
  refine ⟨built, ?_, ?_⟩
  · obtain ⟨found, shape⟩ := ownershipChain_exact built ⟨3⟩
    have met : ∀ i ≤ 2, ∃ declaration, crookedStore.ancestor? i ⟨3⟩ = some declaration := by
      intro i le
      have : i = 0 ∨ i = 1 ∨ i = 2 := by omega
      rcases this with rfl | rfl | rfl <;> exact ⟨_, rfl⟩
    have apart : ∀ i j, i < j → j ≤ 2 →
        crookedStore.ancestor? i ⟨3⟩ ≠ crookedStore.ancestor? j ⟨3⟩ := by
      intro i j before le same
      have named := congrArg (Option.map (·.id)) same
      have : (i = 0 ∧ j = 1) ∨ (i = 0 ∧ j = 2) ∨ (i = 1 ∧ j = 2) := by omega
      rcases this with ⟨rfl, rfl⟩ | ⟨rfl, rfl⟩ | ⟨rfl, rfl⟩ <;> cases named
    obtain ⟨chain, leads⟩ := found.2 ⟨2, by decide, met, apart, _, rfl, rfl, rfl⟩
    obtain ⟨-, -, distinct, -, spelled⟩ := shape chain leads
    exact ⟨chain, leads, distinct, by rw [spelled]; rfl⟩
  · rw [(ownershipChain_exact built ⟨4⟩).1]
    rintro ⟨links, -, -, apart, root, leads, outermost, -⟩
    have again : crookedStore.ancestor? 0 ⟨4⟩ = crookedStore.ancestor? 2 ⟨4⟩ := rfl
    match links with
    | 0 => cases Option.some.inj leads; cases outermost
    | 1 => cases Option.some.inj leads; cases outermost
    | links + 2 => exact apart 0 2 (by decide) (by omega) again

end ClassSymbols
