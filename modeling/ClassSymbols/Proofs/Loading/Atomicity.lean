import ClassSymbols.Proofs.Loading.Contexts

/-!
# Loading is all or nothing

A local declaration is stored whole, under the next id, or nothing is stored. The records that it
refers to may be missing or broken in many ways, and some of them are noticed only once the id has
been given out; the id stays unused then.

## Main definitions

* `Store.GainsOne` — whether a store has one declaration more than another one.

## Main statements

* `resolveLocal_atomic` — a local declaration is stored inside the last declaration of the chain,
  and changes nothing else.
-/

namespace ClassSymbols

open Relation Store

variable {s s' : Store}

/-! ## Local declarations -/

/-- Whether a store is another one with one more declaration, which has the next id. A class is
found from then on, and what other class ids find stays. -/
structure Store.GainsOne (s : Store) (declaration : Declaration) (t : Store) : Prop where
  own : declaration.id = s.next
  free : s.get? s.next = none
  next_eq : t.next = s.next.next
  stored : t.get? s.next = some declaration
  kept : ∀ id, id ≠ s.next → t.get? id = s.get? id
  found : ∀ classId, t.findClass? classId =
    if declaration.class?.any (·.classId = classId) then some s.next else s.findClass? classId

theorem Store.WellFormed.gainsOne (wf : s.WellFormed) {declaration : Declaration}
    (own : declaration.id = s.next) :
    s.GainsOne declaration (s.receive s.next.next [declaration]) where
  own := own
  free := by
    cases stored : s.get? s.next with
    | none => rfl
    | some other => exact absurd (wf.allocated stored) (Nat.lt_irrefl _)
  next_eq := rfl
  stored := by rw [get?_receive_singleton, if_pos own]
  kept id other := by rw [get?_receive_singleton, own, if_neg (Ne.symm other)]
  found classId := by
    change ({ s with next := s.next.next : Store }.insert declaration).findClass? classId = _
    rw [findClass?_insert, own]
    cases declaration.class? <;> simp [findClass?]

/-- The innermost declaration of the context of a tower is the last one of its chain. -/
theorem Tower.owner_of_build {chain : List Declaration} {tower : Tower}
    (built : Tower.build chain = .ok tower) :
    ∃ outer, chain.getLast? = some outer ∧ tower.context.owner = outer.id := by
  obtain ⟨data, -, rfl, context⟩ := Tower.exists_of_build built
  rw [context]
  -- each declaration above the fragment brings a layer of its own
  induction tower.enclosing using List.reverseRecOn with
  | nil => exact ⟨tower.fragment, rfl, rfl⟩
  | append_singleton before declaration _ =>
    refine ⟨declaration, List.getLast?_concat (l := tower.module :: tower.fragment :: before), ?_⟩
    rw [ScopeContext.insideAll_concat, ScopeContext.owner_inside]

/-- Let the declarations of a store be there under their own ids, which have been given out. If a
local declaration cannot be resolved in it then the store stays as it is, or only loses the next id.
Otherwise it gains the declaration under the next id, contained in the last declaration of the chain
and with no members read, and nothing else. -/
theorem resolveLocal_atomic (wf : s.WellFormed) (table : SymbolTable) (target : RecordRef)
    (chain : List Declaration) {r : Except SymbolError DeclId}
    (h : Gives (resolveLocal table target chain) s r s') :
    (∃ e, r = .error e ∧ (s' = s ∨ s' = s.reserve)) ∨
      ∃ declaration outer, r = .ok s.next ∧ s.GainsOne declaration s' ∧
        chain.getLast? = some outer ∧
        declaration.container = some outer.id ∧
        ∀ data, declaration.class? = some data → data.members.known? = none := by
  rcases resolveLocal_cases h with failed | ⟨tower, record, declaration, found, read, rfl, rfl⟩
  · exact .inl failed
  · obtain ⟨own, -, unread⟩ := record.fresh_reader _ _ read
    obtain ⟨outer, last, owner⟩ := Tower.owner_of_build (build_of_localRecord found)
    have reads : tower.context.Reads (fun _ => True) s declaration :=
      LocalRecord.reads (fun _ _ _ => trivial) (own.symm ▸ read)
    have within := Declaration.Within.of_reads wf reads
    exact .inr ⟨declaration, outer, rfl, wf.gainsOne own, last, owner ▸ within.container, unread⟩

/-- The local function `f` is resolved in the class `Box<T>` and stored there, as a member of it
under the id 5. -/
theorem resolveLocal_atomic_of_box :
    let s := Store.empty.after (loadAll boxModule)
    ∃ chain, s.ownershipChain ⟨3⟩ = .ok chain ∧
      let t := s.after (resolveLocal boxModule ⟨"p", 0⟩ chain)
      ∃ declaration, s.GainsOne declaration t ∧ t.get? ⟨5⟩ = some declaration ∧
        declaration.container = some ⟨3⟩ := by
  intro s
  have wf : s.WellFormed := by
    obtain ⟨r, loaded⟩ := Store.exists_gives_after .empty (loadAll boxModule)
    exact (Recorded.empty.of_loading (.single (.all boxModule r loaded))).1.toWellFormed
  obtain ⟨chain, leads, ends, t, resolved⟩ : ∃ chain, s.ownershipChain ⟨3⟩ = .ok chain ∧
      chain.getLast?.map (·.id) = some ⟨3⟩ ∧
      ∃ t, Gives (resolveLocal boxModule ⟨"p", 0⟩ chain) s (.ok ⟨5⟩) t :=
    ⟨_, rfl, rfl, _, rfl⟩
  obtain ⟨r, after⟩ := s.exists_gives_after (resolveLocal boxModule ⟨"p", 0⟩ chain)
  obtain ⟨rfl, rfl⟩ := after.unique resolved
  refine ⟨chain, leads, ?_⟩
  rcases resolveLocal_atomic wf boxModule ⟨"p", 0⟩ chain after with
    ⟨_, refused, -⟩ | ⟨declaration, outer, given, gains, last, inside, -⟩
  · cases refused
  · have next : ⟨5⟩ = s.next := Except.ok.inj given
    rw [last] at ends
    exact ⟨declaration, gains, next ▸ gains.stored, inside.trans ends⟩

end ClassSymbols
