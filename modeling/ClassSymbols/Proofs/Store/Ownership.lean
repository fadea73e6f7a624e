import ClassSymbols.Proofs.Data.Traversal
import ClassSymbols.Proofs.Store.WellFormed
import ClassSymbols.Store.Ownership

/-!
# Chains of containers

The containers of a declaration form a chain from its module down to it. The chain is found if it is
short enough and leads through no declaration twice, and nothing else is found.

## Main definitions

* `Store.Chain` — the declarations from a module down to the one under an id.

## Main statements

* `Store.Chain.unique` — there is at most one chain of a declaration.
* `Store.ownershipChain_eq_ok_iff` — the chains that are found.
* `Store.Chain.ownershipChain_eq` — where containers are older than what they contain, short chains
  are found.
-/

namespace ClassSymbols

namespace Store

/-- Whether containers lead from a module down to the declaration under an id, through the
declarations of a list. -/
inductive Chain (store : Store) : DeclId → List Declaration → Prop
  | root {id : DeclId} {declaration : Declaration} : store.get? id = some declaration →
      declaration.container = none → declaration.isModule = true → Chain store id [declaration]
  | inner {id container : DeclId} {declaration : Declaration} {above : List Declaration} :
      store.get? id = some declaration → declaration.container = some container →
      Chain store container above →
      Chain store id (above ++ [declaration])

variable {store : Store} {id : DeclId} {chain : List Declaration}

namespace Chain

theorem unique (h : store.Chain id chain) {other : List Declaration} (h' : store.Chain id other) :
    chain = other := by
  induction h generalizing other with
  | root stored outermost _ =>
    cases h' with
    | root stored' _ _ => rw [Option.some.inj (stored.symm.trans stored')]
    | inner stored' inside _ =>
      obtain rfl := Option.some.inj (stored.symm.trans stored')
      cases outermost.symm.trans inside
  | inner stored inside _ ih =>
    cases h' with
    | root stored' outermost _ =>
      obtain rfl := Option.some.inj (stored.symm.trans stored')
      cases outermost.symm.trans inside
    | inner stored' inside' above' =>
      obtain rfl := Option.some.inj (stored.symm.trans stored')
      obtain rfl := Option.some.inj (inside.symm.trans inside')
      rw [ih above']

/-- The last declaration of a chain is the one under the id. -/
theorem exists_concat (h : store.Chain id chain) :
    ∃ above declaration, chain = above ++ [declaration] ∧ store.get? id = some declaration := by
  cases h with
  | root stored _ _ => exact ⟨[], _, rfl, stored⟩
  | inner stored _ _ => exact ⟨_, _, rfl, stored⟩

/-- The first declaration of a chain is a module, and is contained in nothing. -/
theorem exists_outermost (h : store.Chain id chain) :
    ∃ module rest, chain = module :: rest ∧ module.isModule = true ∧ module.container = none := by
  induction h with
  | root _ outermost module => exact ⟨_, [], rfl, module, outermost⟩
  | inner _ _ _ ih =>
    obtain ⟨module, rest, rfl, first⟩ := ih
    exact ⟨module, _, rfl, first⟩

/-- The first declaration of a chain is a module. -/
theorem exists_cons (h : store.Chain id chain) :
    ∃ module rest, chain = module :: rest ∧ module.isModule = true := by
  obtain ⟨module, rest, e, first, -⟩ := h.exists_outermost
  exact ⟨module, rest, e, first⟩

theorem stored (keyed : ∀ {id declaration}, store.get? id = some declaration → declaration.id = id)
    (h : store.Chain id chain) :
    ∀ declaration ∈ chain, store.get? declaration.id = some declaration := by
  induction h with
  | root stored _ _ =>
    intro declaration hd
    obtain rfl := List.mem_singleton.1 hd
    rwa [keyed stored]
  | inner stored _ _ ih =>
    intro declaration hd
    rcases List.mem_append.1 hd with hd | hd
    · exact ih declaration hd
    · obtain rfl := List.mem_singleton.1 hd
      rwa [keyed stored]

/-- A chain is found if there is room for it and it leads through no declaration twice. -/
theorem chainFrom_eq (h : store.Chain id chain) {start : DeclId} {room : Nat}
    {below : List Declaration} (short : chain.length ≤ room)
    (distinct : ((chain ++ below).map (·.id)).Nodup) :
    store.chainFrom start room id below = .ok (chain ++ below) := by
  have new {declaration : Declaration} {rest : List Declaration}
      (h : ((declaration :: rest).map (·.id)).Nodup) :
        ∀ other ∈ rest, ¬ other.id = declaration.id := by
    intro other ho same
    exact (List.nodup_cons.1 h).1 (List.mem_map.2 ⟨other, ho, same⟩)
  induction h generalizing room below with
  | root stored outermost module =>
    obtain ⟨room, rfl⟩ := Nat.exists_eq_add_of_le' short
    simpa [chainFrom, resolve_eq_ok_iff.2 stored, outermost, module, bind, Except.bind, pure,
      Except.pure]
      using new distinct
  | @inner id container declaration above stored inside _ ih =>
    rw [List.length_append, List.length_singleton] at short
    obtain ⟨room, rfl⟩ := Nat.exists_eq_add_of_le' (Nat.le_of_add_left_le short)
    rw [List.append_assoc, List.singleton_append] at distinct ⊢
    have apart : ((declaration :: below).map (·.id)).Nodup := by
      rw [List.map_append] at distinct
      exact distinct.of_append_right
    have found := ih (Nat.le_of_add_le_add_right short) distinct
    simpa [chainFrom, resolve_eq_ok_iff.2 stored, inside, found, bind, Except.bind] using new apart

end Chain

/-- What is found is a chain that leads through no declaration twice. -/
theorem chain_of_chainFrom {start : DeclId} {room : Nat} {below found : List Declaration}
    (h : store.chainFrom start room id below = .ok found) :
    ∃ chain, store.Chain id chain ∧ found = chain ++ below ∧
      chain.length ≤ room ∧ ((below.map (·.id)).Nodup → (found.map (·.id)).Nodup) := by
  induction room generalizing id below with
  | zero => cases h
  | succ room ih =>
    unfold chainFrom at h
    obtain ⟨declaration, stored, h⟩ := Except.bind_eq_ok_iff.1 h
    have stored := resolve_eq_ok_iff.1 stored
    by_cases again : below.any (·.id == declaration.id) = true
    · rw [if_pos again] at h
      cases h
    rw [if_neg again] at h
    have apart : (below.map (·.id)).Nodup → ((declaration :: below).map (·.id)).Nodup := by
      intro nodup
      refine List.nodup_cons.2 ⟨fun listed => again ?_, nodup⟩
      obtain ⟨other, ho, same⟩ := List.mem_map.1 listed
      exact List.any_eq_true.2 ⟨other, ho, beq_iff_eq.2 same⟩
    cases inside : declaration.container with
    | none =>
      cases module : declaration.isModule
      · simp [inside, module, throw, throwThe, MonadExceptOf.throw] at h
      · simp only [inside, module, if_true] at h
        obtain rfl := Except.ok.inj h
        exact ⟨[declaration], .root stored inside module, rfl, Nat.succ_le_succ (Nat.zero_le room),
          apart⟩
    | some container =>
      simp only [inside] at h
      obtain ⟨above, chain, rfl, short, distinct⟩ := ih h
      refine ⟨above ++ [declaration], .inner stored inside chain, by simp, ?_,
        fun nodup => distinct (apart nodup)⟩
      rw [List.length_append]
      exact Nat.succ_le_succ short

/-- The chain of a declaration is found if it is short enough and leads through no declaration
twice. -/
theorem ownershipChain_eq_ok_iff : store.ownershipChain id = .ok chain ↔
    store.Chain id chain ∧ chain.length ≤ Limits.ownershipDepth ∧ (chain.map (·.id)).Nodup := by
  constructor
  · intro h
    obtain ⟨found, chain, rfl, short, distinct⟩ := chain_of_chainFrom h
    rw [List.append_nil] at distinct ⊢
    exact ⟨chain, short, distinct List.nodup_nil⟩
  · rintro ⟨h, short, distinct⟩
    rw [ownershipChain, h.chainFrom_eq short (by rwa [List.append_nil]), List.append_nil]

/-! ## Older containers -/

/-- Whether the container of each declaration is stored under a smaller id. -/
def Layered (store : Store) : Prop :=
  ∀ {id declaration container}, store.get? id = some declaration →
    declaration.container = some container →
    (∃ outer, store.get? container = some outer) ∧ container.number < id.number

theorem Chain.increasing (wf : store.WellFormed) (layered : store.Layered)
    (h : store.Chain id chain) :
    chain.Pairwise (fun outer inner => outer.id.number < inner.id.number) ∧
      ∀ declaration ∈ chain, declaration.id.number ≤ id.number := by
  induction h with
  | root stored _ _ => simp [wf.keyed stored]
  | inner stored inside _ ih =>
    obtain ⟨increasing, bounded⟩ := ih
    have own := wf.keyed stored
    obtain ⟨-, older⟩ := layered stored inside
    constructor
    · refine List.pairwise_append.2 ⟨increasing, List.pairwise_singleton _ _,
        fun outer ho d hd => ?_⟩
      have := bounded outer ho
      obtain rfl := List.mem_singleton.1 hd
      rw [own]
      omega
    · intro declaration hd
      rcases List.mem_append.1 hd with hd | hd
      · have := bounded declaration hd
        omega
      · exact Nat.le_of_eq (congrArg DeclId.number (List.mem_singleton.1 hd ▸ own))

/-- Where containers are older than what they contain, a chain is found if it is short enough. -/
theorem Chain.ownershipChain_eq (wf : store.WellFormed) (layered : store.Layered)
    (h : store.Chain id chain) (short : chain.length ≤ Limits.ownershipDepth) :
    store.ownershipChain id = .ok chain := by
  refine ownershipChain_eq_ok_iff.2 ⟨h, short, ?_⟩
  refine List.pairwise_map.2 ((h.increasing wf layered).1.imp fun {outer inner} older same => ?_)
  rw [same] at older
  omega

end Store

end ClassSymbols
