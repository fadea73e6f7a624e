import ClassSymbols.Loading.Members
import ClassSymbols.Proofs.Data.Traversal
import ClassSymbols.Proofs.Store.Computation
import ClassSymbols.Proofs.Store.Growth

/-!
# Records are read under consecutive ids

Reading a list of records gives out ids and changes nothing else. If all records can be read, each
declaration has the id after that of the one before.

## Main definitions

* `Store.upTo` — a store that has given out ids up to a number.
* `Loads`, `LoadsAll` — whether a computation reads records under the next ids.
* `Numbered` — the declarations of some records under consecutive ids.
* `readAll` — records that are read under consecutive ids, or why they cannot be read.

## Main statements

* `mapM_loads` — records are read under consecutive ids.
* `Numbered.batch` — declarations under consecutive ids are a batch.
-/

namespace ClassSymbols

/-- A declaration as a function of its id, if it can be read. -/
abbrev Reader := DeclId → Except SymbolError Declaration

def Store.upTo (base : Store) (n : Nat) : Store := { base with next := ⟨n⟩ }

/-- Whether a computation on stores that only differ in the next id reads a record under that id. A
failure may use up the id. -/
def Loads (base : Store) (load : StoreM Declaration) (read : Reader) : Prop :=
  ∀ {n r s'}, Gives load (base.upTo n) r s' →
    (∃ declaration, r = .ok declaration ∧ read ⟨n⟩ = .ok declaration ∧ s' = base.upTo (n + 1)) ∨
      ∃ e m, r = .error e ∧ read ⟨n⟩ = .error e ∧ n ≤ m ∧ s' = base.upTo m

/-- Whether records are read as some declarations, under consecutive ids. -/
inductive Numbered : Nat → List Reader → List Declaration → Prop
  | nil (n : Nat) : Numbered n [] []
  | cons {n : Nat} {read : Reader} {reads : List Reader} {declaration : Declaration}
      {declarations : List Declaration} : read ⟨n⟩ = .ok declaration →
      Numbered (n + 1) reads declarations →
      Numbered n (read :: reads) (declaration :: declarations)

theorem Numbered.append {n : Nat} {reads reads' : List Reader} {ds ds' : List Declaration}
    (h : Numbered n reads ds) (h' : Numbered (n + ds.length) reads' ds') :
    Numbered n (reads ++ reads') (ds ++ ds') := by
  induction h with
  | nil => simpa using h'
  | cons read _ ih =>
    refine .cons read (ih ?_)
    simpa [Nat.add_assoc, Nat.add_comm 1] using h'

/-- Records that are read under consecutive ids, up to the first one that cannot be read. -/
def readAll : Nat → List Reader → Except SymbolError (List Declaration)
  | _, [] => .ok []
  | n, read :: reads => do
    let declaration ← read ⟨n⟩
    let declarations ← readAll (n + 1) reads
    return declaration :: declarations

theorem numbered_iff {n : Nat} {reads : List Reader} {ds : List Declaration} :
    Numbered n reads ds ↔ readAll n reads = .ok ds := by
  induction reads generalizing n ds with
  | nil =>
    refine ⟨fun h => by cases h; rfl, fun h => ?_⟩
    obtain rfl := Except.ok.inj h
    exact .nil n
  | cons read reads ih =>
    simp only [readAll, Except.bind_eq_ok_iff, ← ih]
    constructor
    · intro h
      cases h with
      | cons first others => exact ⟨_, first, _, others, rfl⟩
    · rintro ⟨declaration, first, declarations, others, made⟩
      obtain rfl := Except.ok.inj made
      exact .cons first others

theorem readAll_append {n : Nat} (reads reads' : List Reader) : readAll n (reads ++ reads') = do
    let ds ← readAll n reads
    let ds' ← readAll (n + ds.length) reads'
    return ds ++ ds' := by
  induction reads generalizing n with
  | nil =>
    simp only [List.nil_append, readAll, bind, Except.bind, List.length_nil, Nat.add_zero]
    cases readAll n reads' <;> rfl
  | cons read reads ih =>
    simp only [List.cons_append, readAll, ih, bind, Except.bind]
    cases read ⟨n⟩ with
    | error e => rfl
    | ok declaration =>
      dsimp only
      cases readAll (n + 1) reads with
      | error e => rfl
      | ok ds =>
        simp only [pure, Except.pure, List.length_cons, Nat.add_assoc, Nat.add_comm 1]
        cases readAll (n + (ds.length + 1)) reads' <;> rfl

/-- Records that can be read alike, whatever the ids, stop at the same record for the same
reason. -/
theorem verdict_readAll {n n' : Nat} {reads reads' : List Reader}
    (alike : List.Forall₂ (fun read read' => ∀ id id', verdict (read id) = verdict (read' id'))
      reads reads') :
    verdict (readAll n reads) = verdict (readAll n' reads') := by
  induction alike generalizing n n' with
  | nil => rfl
  | cons first _ ih => exact verdict_bind (first ⟨n⟩ ⟨n'⟩) fun _ _ => verdict_bind ih fun _ _ => rfl

/-- Whether a computation reads records under consecutive ids. A failure may use up some of them. -/
def LoadsAll (base : Store) (load : StoreM (List Declaration)) (reads : List Reader) : Prop :=
  ∀ {n r s'}, Gives load (base.upTo n) r s' →
    (∃ ds, r = .ok ds ∧ Numbered n reads ds ∧ s' = base.upTo (n + ds.length)) ∨
      ∃ e m, r = .error e ∧ readAll n reads = .error e ∧ n ≤ m ∧ s' = base.upTo m

/-- A list of records is read under consecutive ids, or the first record that cannot be read stops
it. -/
theorem mapM_loads {α : Type} {base : Store} {load : α → StoreM Declaration} {read : α → Reader}
    (loads : ∀ record, Loads base (load record) (read record)) (records : List α) :
    LoadsAll base (records.mapM load) (records.map read) := by
  intro n r s' h
  induction records generalizing n r s' with
  | nil =>
    rw [List.mapM_nil, gives_pure_iff] at h
    obtain ⟨rfl, rfl⟩ := h
    exact .inl ⟨[], rfl, .nil n, rfl⟩
  | cons record rest ih =>
    rw [List.mapM_cons] at h
    rcases gives_bind_iff.1 h with ⟨e, rfl, failed⟩ | ⟨declaration, s₁, first, later⟩
    · rcases loads record failed with ⟨_, contra, -, -⟩ | ⟨_, m, e', refused, hm, rfl⟩
      · cases contra
      · obtain rfl := Except.error.inj e'
        exact .inr ⟨e, m, rfl, by simp [readAll, refused, bind, Except.bind], hm, rfl⟩
    · rcases loads record first with ⟨_, e, read, rfl⟩ | ⟨_, _, e, -, -, -⟩
      · obtain rfl := Except.ok.inj e
        rcases gives_bind_iff.1 later with ⟨e, rfl, failed⟩ | ⟨ds, s₂, others, done⟩
        · rcases ih failed with ⟨_, contra, -, -⟩ | ⟨_, m, e', refused, hm, rfl⟩
          · cases contra
          · obtain rfl := Except.error.inj e'
            exact .inr ⟨e, m, rfl, by simp [readAll, read, refused, bind, Except.bind], by omega,
              rfl⟩
        · rcases ih others with ⟨_, e, numbered, rfl⟩ | ⟨_, _, e, -, -, -⟩
          · obtain rfl := Except.ok.inj e
            obtain ⟨rfl, rfl⟩ := gives_pure_iff.1 done
            refine .inl ⟨_, rfl, .cons read numbered, ?_⟩
            simp [Nat.add_assoc, Nat.add_comm 1]
          · cases e
      · cases e

/-- A sequence reads its first records, and goes on after their ids. -/
theorem LoadsAll.bind {α : Type} {base : Store} {load : StoreM (List Declaration)}
    {reads : List Reader} (loads : LoadsAll base load reads) {next : List Declaration → StoreM α}
    {n : Nat} {r : Except SymbolError α} {s' : Store}
    (h : Gives (load >>= next) (base.upTo n) r s') :
    (∃ e m, r = .error e ∧ readAll n reads = .error e ∧ n ≤ m ∧ s' = base.upTo m) ∨
      ∃ ds, Numbered n reads ds ∧ Gives (next ds) (base.upTo (n + ds.length)) r s' := by
  rcases gives_bind_iff.1 h with ⟨e, rfl, failed⟩ | ⟨ds, s₁, first, later⟩
  · rcases loads failed with ⟨_, contra, -, -⟩ | ⟨_, m, e', refused, hm, rfl⟩
    · cases contra
    · obtain rfl := Except.error.inj e'
      exact .inl ⟨e, m, rfl, refused, hm, rfl⟩
  · rcases loads first with ⟨_, e, numbered, rfl⟩ | ⟨_, _, contra, -, -, -⟩
    · obtain rfl := Except.ok.inj e
      exact .inr ⟨ds, numbered, later⟩
    · cases contra

/-- Whether what is read has the id that it is read under and says that it was read, and no members
of it are known. -/
def Reader.Fresh (read : Reader) : Prop :=
  ∀ {id declaration}, read id = .ok declaration → declaration.id = id ∧
    declaration.origin = .deserialized ∧
    ∀ data, declaration.class? = some data → data.members.known? = none

theorem Numbered.forall₂ {n : Nat} {reads : List Reader} {ds : List Declaration}
    (h : Numbered n reads ds) : List.Forall₂ (fun read d => ∃ id, read id = .ok d) reads ds := by
  induction h with
  | nil => exact .nil
  | cons read _ ih => exact .cons ⟨_, read⟩ ih

theorem Numbered.map_id_eq {n : Nat} {reads : List Reader} {ds : List Declaration}
    (h : Numbered n reads ds) (fresh : ∀ read ∈ reads, Reader.Fresh read) :
    ds.map (·.id) = (List.range' n ds.length).map DeclId.mk := by
  induction h with
  | nil => rfl
  | cons read _ ih =>
    rw [List.map_cons, List.length_cons, List.range'_succ, List.map_cons,
      (fresh _ List.mem_cons_self read).1,
      ih fun other ho => fresh other (List.mem_cons_of_mem _ ho)]

/-- Declarations that are read under the next ids of a store are a batch for it. -/
theorem Numbered.batch {s : Store} {n : Nat} {reads : List Reader} {ds : List Declaration}
    (h : Numbered n reads ds) (fresh : ∀ read ∈ reads, Reader.Fresh read) (le : s.next.number ≤ n)
    {m : Nat} (hm : n + ds.length ≤ m) : s.Batch ⟨m⟩ ds := by
  have ids := h.map_id_eq fresh
  have bounds : ∀ declaration ∈ ds,
      n ≤ declaration.id.number ∧ declaration.id.number < n + ds.length := by
    intro declaration hd
    have listed : declaration.id ∈ ds.map (·.id) := List.mem_map_of_mem hd
    rw [ids, List.mem_map] at listed
    obtain ⟨k, hk, e⟩ := listed
    have := List.mem_range'_1.1 hk
    rw [← e]
    exact this
  have unread : ∀ declaration ∈ ds, ∀ data, declaration.class? = some data →
      data.members.known? = none := by
    intro declaration hd
    obtain ⟨read, hr, id, made⟩ := exists_mem_of_forall₂ h.forall₂ hd
    exact (fresh read hr made).2.2
  refine ⟨by change _ ≤ m; omega, ?_, fun d hd => ?_, fun d hd => ?_, unread⟩
  · rw [ids]
    exact (List.nodup_range' _).map fun a b e => DeclId.mk.inj e
  · have := bounds d hd
    omega
  · have := bounds d hd
    change _ < m
    omega

end ClassSymbols
