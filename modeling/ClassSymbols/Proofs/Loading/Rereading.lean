import ClassSymbols.Proofs.Loading.Twins

/-!
# Records that are read twice

The id that is given out for a declaration goes into its type parameters, their bounds and all its
types, and a class keeps it in the context for its members. That is all that the id is good for: a
record that is read under two ids fails twice for the same reason, or gives one declaration with two
addresses.

## Main definitions

* `Declaration.readdress` — the declaration under another id.
* `Declaration.LayerOwned` — whether the layer of a declaration refers to declarations of a set.

## Main statements

* `MemberRecord.reader_readdress` — a record that is read under two ids.
* `resolveLocal_alike` — a local declaration that is resolved in two stores.
* `readings_agree` — resolution is idempotent up to the identity of what is resolved.
-/

namespace ClassSymbols

open Store

variable {P : DeclId → Prop} {context : ScopeContext}

/-! ## Addresses -/

/-- The declaration under another id, which takes the place of its own one everywhere in its type
parameters and types, and in the context that a class keeps for its members. A constructor has no
type parameters of its own. -/
def Declaration.readdress (declaration : Declaration) (id : DeclId) : Declaration :=
  { declaration with
    id
    kind := match declaration.kind with
      | .constructor data => .constructor data
      | kind => kind.rename (DeclId.replace declaration.id id) }

namespace Declaration

variable (declaration : Declaration) (id : DeclId)

@[simp] theorem id_readdress : (declaration.readdress id).id = id := rfl

@[simp] theorem label_readdress :
    (declaration.readdress id).kind.label = declaration.kind.label := by
  obtain ⟨_, _, _, _, _, kind⟩ := declaration
  cases kind <;> rfl

@[simp] theorem visibility_readdress :
    (declaration.readdress id).visibility = declaration.visibility := by
  obtain ⟨_, _, _, _, _, kind⟩ := declaration
  cases kind <;> rfl

@[simp] theorem modality_readdress :
    (declaration.readdress id).modality = declaration.modality := by
  obtain ⟨_, _, _, _, _, kind⟩ := declaration
  cases kind <;> rfl

theorem asVariable_readdress :
    (declaration.readdress id).asVariable = declaration.asVariable.readdress id := by
  obtain ⟨_, _, _, _, _, kind⟩ := declaration
  cases kind <;> rfl

/-- Where a declaration does not refer to its own id but as the owner of type parameters, it gets
its new id by a renaming. -/
theorem rename_replace_eq_readdress {outer : DeclId}
    (contained : declaration.container = some outer) (apart : outer ≠ declaration.id)
    (typed : ∀ data, declaration.kind ≠ .constructor data) :
    declaration.rename (DeclId.replace declaration.id id) = declaration.readdress id := by
  obtain ⟨own, name, container, annotations, origin, kind⟩ := declaration
  obtain rfl : container = some outer := contained
  have apart : outer ≠ own := apart
  cases kind with
  | constructor data => exact absurd rfl (typed data)
  | _ => simp [rename, readdress, DeclId.replace, apart]

end Declaration

/-! ## Contexts -/

namespace ScopeContext

theorem owner_mem (context : ScopeContext) :
    context.owner ∈ context.fragment :: context.declarations := by
  rw [owner, List.getLastD_eq_getLast?]
  cases last : context.declarations.getLast? with
  | none => exact List.mem_cons_self
  | some id => exact List.mem_cons_of_mem _ (List.mem_of_getLast? last)

theorem Owned.owner (h : context.Owned P) : P context.owner :=
  List.forall_mem_cons.2 ⟨h.fragment, h.declarations⟩ _ context.owner_mem

/-- A context that does not refer to an id stays when the id is replaced. -/
theorem Owned.rename_replace {old : DeclId} (apart : context.Owned (· ≠ old)) (new : DeclId) :
    context.rename (DeclId.replace old new) = context :=
  (apart.mono fun _ other => if_neg other).rename_eq_self

theorem path_congr {base base' : Store}
    (same : ∀ id ∈ context.fragment :: context.declarations, base'.get? id = base.get? id) :
    context.path base' = context.path base := by
  refine congrArg Text.dotted (List.map_congr_left fun id hid => ?_)
  rw [same id hid]

end ScopeContext

/-- Whether the layer that a declaration adds to a context refers to declarations of a set: the
declaration and what its type parameters refer to. -/
structure Declaration.LayerOwned (P : DeclId → Prop) (declaration : Declaration) : Prop where
  id : P declaration.id
  parameters : ∀ parameter ∈ declaration.typeParameters, parameter.Owned P

namespace Tower

variable {chain : List Declaration} {tower : Tower} (built : Tower.build chain = .ok tower)
include built

/-- The declarations around the innermost place of a chain are those of the chain. -/
theorem exists_mem_of_build :
    ∀ id ∈ tower.context.fragment :: tower.context.declarations,
      ∃ declaration ∈ chain, declaration.id = id := by
  obtain ⟨data, -, rfl, context⟩ := exists_of_build built
  rw [context, ScopeContext.fragment_insideAll, ScopeContext.declarations_insideAll]
  intro id hid
  obtain ⟨declaration, hd, rfl⟩ :=
    List.mem_map.1 (show id ∈ (tower.fragment :: tower.enclosing).map (·.id) from hid)
  exact ⟨declaration, List.mem_cons_of_mem _ hd, rfl⟩

/-- The context of a tower refers to what the declarations of its chain refer to. -/
theorem owned_of_build (owned : ∀ declaration ∈ chain, declaration.LayerOwned P) :
    tower.context.Owned P := by
  have ids : ∀ id ∈ tower.context.fragment :: tower.context.declarations, P id := by
    intro id hid
    obtain ⟨declaration, hd, rfl⟩ := exists_mem_of_build built id hid
    exact (owned declaration hd).id
  obtain ⟨first, rest⟩ := List.forall_mem_cons.1 ids
  refine ⟨first, rest, fun parameter hp => ?_⟩
  obtain ⟨data, -, rfl, context⟩ := exists_of_build built
  rw [context, ScopeContext.flatten_parameters_insideAll, List.mem_append] at hp
  rcases hp with hp | hp
  · obtain ⟨declaration, hd, hp⟩ := List.mem_flatMap.1 hp
    have listed : declaration ∈ tower.enclosing := List.mem_reverse.1 hd
    exact (owned declaration (by simp [listed])).parameters parameter hp
  · cases hp

end Tower

/-! ## Records -/

section Records

variable {n : DeclId} (apart : context.Owned (· ≠ n)) (path : String) {base base' : Store}
  (m : DeclId)
include apart

/-- What is the renamed declaration when it is read in a renamed context is the declaration under
another id when it is read under that id, unless it is a constructor. -/
theorem readdress_of_rename (read : ScopeContext → Reader) (fresh : Reader.Fresh (read context))
    (renamed : read (context.rename (DeclId.replace n m))
      (DeclId.replace n m n) = (read context n).map (Declaration.rename (DeclId.replace n m)))
    (within : ∀ declaration, read context n = .ok declaration → declaration.Within context)
    (typed : ∀ declaration, read context n = .ok declaration →
      ∀ data, declaration.kind ≠ .constructor data) :
    read context m = (read context n).map (·.readdress m) := by
  rw [apart.rename_replace, DeclId.replace_self] at renamed
  rw [renamed]
  cases first : read context n with
  | error e => rfl
  | ok declaration =>
    obtain ⟨rfl, -⟩ := fresh first
    have contained := (within declaration first).container
    exact congrArg Except.ok
      (declaration.rename_replace_eq_readdress m contained apart.owner (typed declaration first))

/-- A record that is read under another id, where the class around it is the same, is the
declaration under that id, or cannot be read for the same reason. -/
theorem MemberRecord.reader_readdress (same : base'.get? context.owner = base.get? context.owner)
    (record : MemberRecord) :
    record.reader ⟨context, path⟩ base' m =
      (record.reader ⟨context, path⟩ base n).map (·.readdress m) := by
  cases record with
  | constructor record =>
    -- the id of a constructor is in its header only
    have owned : Site.ownerClass ⟨context, path⟩ base' = Site.ownerClass ⟨context, path⟩ base := by
      simp only [Site.ownerClass, Store.resolve, same]
    simp only [reader, Site.constructorReader, owned]
    refine Except.bind_translate_right fun outer => ?_
    unfold Site.readConstructor Site.reporting
    cases record.valueParameters.mapM (Site.readValueParameter context) with
    | error e => rfl
    | ok values => cases record.annotations.mapM (Site.annotationOf context) <;> rfl
  | function record =>
    refine readdress_of_rename apart m
      (fun context id => Site.readFunction ⟨context, path⟩ id record)
      (Site.fresh_readFunction record) (Site.readFunction_rename record)
        (fun _ => Declaration.Within.of_readFunction)
      fun _ read _ kind => ?_
    obtain ⟨data, kind', -⟩ := Site.exists_function_of_readFunction read
    cases kind.symm.trans kind'
  | property record =>
    refine readdress_of_rename apart m
      (fun context id => Site.readProperty ⟨context, path⟩ id record)
      (Site.fresh_readProperty record) (Site.readProperty_rename record)
      (fun _ read => (Declaration.Within.of_readProperty read).1) fun _ read _ kind => ?_
    obtain ⟨data, kind', -⟩ := Site.exists_property_of_readProperty read
    cases kind.symm.trans kind'
  | classifier record =>
    refine readdress_of_rename apart m (fun context id => Site.readClass ⟨context, path⟩ id record)
      (Site.fresh_readClass record) (Site.readClass_rename record)
        (fun _ => Declaration.Within.of_readClass)
      fun _ read _ kind => ?_
    obtain ⟨data, _, isClass, -⟩ := Site.exists_deferred_of_readClass read
    simp [Declaration.class?, kind] at isClass

theorem LocalRecord.reader_readdress (same : base'.get? context.owner = base.get? context.owner)
    (record : LocalRecord) :
    record.reader ⟨context, path⟩ base' m =
      (record.reader ⟨context, path⟩ base n).map (·.readdress m) := by
  refine Except.bind_translate (record.member.reader_readdress apart path m same)
    fun declaration => ?_
  split
  · exact congrArg Except.ok (declaration.asVariable_readdress m)
  · rfl

end Records

/-! ## Local declarations -/

section Resolutions

variable {table : SymbolTable} {target : RecordRef} {chain : List Declaration} {s s' t t' : Store}
  {r r' : Except SymbolError DeclId}

/-- The result of a resolution is that of reading the record, under the next id. -/
theorem result_of_resolveLocal (h : Gives (resolveLocal table target chain) s r s') :
    r = localRecord table target chain >>= fun (tower, record) =>
      (record.reader (tower.context.site s) s s.next).map (·.id) := by
  rcases gives_ofExcept_bind_iff.1 h with ⟨e, refused, rfl, rfl⟩ | ⟨⟨tower, record⟩, found, later⟩
  · rw [refused]
    rfl
  · rw [found]
    change r = (record.reader (tower.context.site s) s s.next).map (·.id)
    rcases gives_bind_iff.1 later with ⟨e, rfl, failed⟩ | ⟨declaration, _, read, last⟩
    · rw [← (Tower.load_cases failed).1]
      rfl
    · rw [← (Tower.load_cases read).1]
      exact (gives_insert_iff.1 last).1

/-- A resolution leaves what is stored under other ids. -/
theorem get?_of_resolveLocal (h : Gives (resolveLocal table target chain) s r s') {id : DeclId}
    (other : id ≠ s.next) :
    s'.get? id = s.get? id := by
  rcases resolveLocal_cases h with ⟨_, -, rfl | rfl⟩ | ⟨tower, record, declaration, -, read, -, rfl⟩
  · rfl
  · rfl
  · obtain ⟨own, -⟩ := record.fresh_reader _ _ read
    rw [get?_receive_singleton, own, if_neg other.symm]

theorem resolveLocal_of_read {tower : Tower} {record : LocalRecord} {declaration : Declaration}
    (found : localRecord table target chain = .ok (tower, record))
    (read : record.reader (tower.context.site s) s s.next = .ok declaration)
    (h : Gives (resolveLocal table target chain) s r s') :
    r = .ok s.next ∧ s' = s.receive s.next.next [declaration] := by
  rcases resolveLocal_cases h with ⟨e, rfl, -⟩ |
    ⟨tower', record', declaration', found', read', rfl, rfl⟩
  · have result := result_of_resolveLocal h
    rw [found] at result
    have result : .error e = (record.reader (tower.context.site s) s s.next).map (·.id) := result
    rw [read] at result
    cases result
  · obtain ⟨rfl, rfl⟩ := Prod.mk.inj (Except.ok.inj (found'.symm.trans found))
    obtain rfl := Except.ok.inj (read'.symm.trans read)
    exact ⟨rfl, rfl⟩

/-- Let a local declaration be resolved in two stores that have the same around it, and let nothing
around it refer to the next id of the first one. Then it is one declaration under two ids, or it
cannot be resolved for one reason. -/
theorem resolveLocal_alike (apart : ∀ declaration ∈ chain, declaration.LayerOwned (· ≠ s.next))
    (same : ∀ declaration ∈ chain, t.get? declaration.id = s.get? declaration.id)
    (first : Gives (resolveLocal table target chain) s r s')
    (second : Gives (resolveLocal table target chain) t r' t') :
    (∃ e, r = .error e ∧ r' = .error e) ∨
      ∃ declaration, declaration.id = s.next ∧ r = .ok s.next ∧
        s' = s.receive s.next.next [declaration] ∧
        r' = .ok t.next ∧ t' = t.receive t.next.next [declaration.readdress t.next] := by
  have result := result_of_resolveLocal first
  have result' := result_of_resolveLocal second
  cases found : localRecord table target chain with
  | error e =>
    rw [found] at result result'
    exact .inl ⟨e, result, result'⟩
  | ok found' =>
    obtain ⟨tower, record⟩ := found'
    have built := build_of_localRecord found
    have around : ∀ id ∈ tower.context.fragment :: tower.context.declarations,
        t.get? id = s.get? id := by
      intro id hid
      obtain ⟨declaration, hd, rfl⟩ := Tower.exists_mem_of_build built id hid
      exact same declaration hd
    have again : record.reader (tower.context.site t) t t.next =
        (record.reader (tower.context.site s) s s.next).map (·.readdress t.next) := by
      rw [ScopeContext.site, ScopeContext.path_congr around]
      exact record.reader_readdress (Tower.owned_of_build built apart) _ t.next
        (around _ tower.context.owner_mem)
    cases read : record.reader (tower.context.site s) s s.next with
    | error e =>
      rw [found] at result result'
      have result : r = (record.reader (tower.context.site s) s s.next).map (·.id) := result
      have result' : r' = (record.reader (tower.context.site t) t t.next).map (·.id) := result'
      rw [read] at result again
      rw [again] at result'
      exact .inl ⟨e, result, result'⟩
    | ok declaration =>
      rw [read] at again
      obtain ⟨own, -⟩ := record.fresh_reader _ _ read
      obtain ⟨given, stored⟩ := resolveLocal_of_read found read first
      exact .inr ⟨declaration, own, given, stored, resolveLocal_of_read found again second⟩

end Resolutions

/-! ## Repetition -/

/-- Nothing around a declaration refers to the id that is given out next. -/
theorem Store.Recorded.owned_of_ownershipChain {s : Store} (h : s.Recorded) {id : DeclId}
    {chain : List Declaration} (leads : s.ownershipChain id = .ok chain) :
    ∀ declaration ∈ chain, declaration.LayerOwned (· ≠ s.next) := by
  have old {id : DeclId} {declaration : Declaration} (stored : s.get? id = some declaration) :
      declaration.LayerOwned (· ≠ s.next) := by
    have allocated := h.allocated stored
    refine ⟨?_, fun parameter hp => (h.owned stored parameter hp).mono fun other le e => ?_⟩
    · rw [h.keyed stored]
      rintro rfl
      exact Nat.lt_irrefl _ allocated
    · rw [e] at le
      omega
  obtain ⟨chained, -, -⟩ := ownershipChain_eq_ok_iff.1 leads
  clear leads
  induction chained with
  | root stored _ _ => exact List.forall_mem_singleton.2 (old stored)
  | inner stored _ _ ih =>
    exact List.forall_mem_append.2 ⟨ih, List.forall_mem_singleton.2 (old stored)⟩

/-- A record of a member that is read under two ids gives one declaration up to its id, which it has
as the owner of its type parameters, too, if the context around it does not refer to the first one.
A local declaration that is resolved twice is two declarations that only differ by their ids in this
way. What cannot be read under one of the ids cannot be read under the other one, for the same
reason. -/
theorem readings_agree :
    (∀ (context : ScopeContext) (path : String) (base : Store) (record : MemberRecord)
        (n m : DeclId),
      context.Owned (· ≠ n) →
      (∃ e, record.reader ⟨context, path⟩ base n = .error e ∧
          record.reader ⟨context, path⟩ base m = .error e) ∨
        ∃ declaration, record.reader ⟨context, path⟩ base n = .ok declaration ∧
          record.reader ⟨context, path⟩ base m = .ok (declaration.readdress m)) ∧
    ∀ (s s' : Store) (table : SymbolTable) (target : RecordRef) (chain : List Declaration)
      (r : Except SymbolError DeclId),
      (∀ declaration ∈ chain, declaration.LayerOwned (· ≠ s.next)) →
      Gives (resolveLocal table target chain) s r s' →
      ∃ r' s'', Gives (resolveLocal table target chain) s' r' s'' ∧
        ((∃ e, r = .error e ∧ r' = .error e) ∨
          ∃ n m declaration declaration', r = .ok n ∧ r' = .ok m ∧ n ≠ m ∧
            s''.get? n = some declaration ∧ s''.get? m = some declaration' ∧
            declaration' = declaration.readdress m ∧
            declaration'.name = declaration.name ∧
            declaration'.container = declaration.container ∧
            declaration'.annotations = declaration.annotations ∧
            declaration'.kind.label = declaration.kind.label ∧
            declaration'.visibility = declaration.visibility ∧
            declaration'.modality = declaration.modality) := by
  refine ⟨fun context path base record n m apart => ?_,
    fun s s' table target chain r apart first => ?_⟩
  · have again :=
      MemberRecord.reader_readdress apart path m (rfl : base.get? context.owner = _) record
    cases read : record.reader ⟨context, path⟩ base n with
    | error e => exact .inl ⟨e, rfl, by rw [again, read]; rfl⟩
    | ok declaration => exact .inr ⟨declaration, rfl, by rw [again, read]; rfl⟩
  · obtain ⟨r', s'', second⟩ := exists_gives (resolveLocal table target chain) s'
    refine ⟨r', s'', second, ?_⟩
    have same : ∀ declaration ∈ chain, s'.get? declaration.id = s.get? declaration.id :=
      fun declaration hd =>
      get?_of_resolveLocal first (apart declaration hd).id
    rcases resolveLocal_alike apart same first second with failed |
      ⟨declaration, own, rfl, rfl, rfl, rfl⟩
    · exact .inl failed
    · have later : s.next ≠ s.next.next :=
      fun e => Nat.succ_ne_self _ (congrArg DeclId.number e).symm
      refine .inr ⟨s.next, s.next.next, declaration, declaration.readdress s.next.next, rfl, rfl,
        later, ?_, ?_, rfl, rfl, rfl, rfl, declaration.label_readdress _,
        declaration.visibility_readdress _, declaration.modality_readdress _⟩
      · rw [next_receive, get?_receive_singleton, Declaration.id_readdress, if_neg later.symm,
          get?_receive_singleton, if_pos own]
      · rw [get?_receive_singleton, next_receive]
        exact if_pos rfl

/-- The record of a function `f` that gives a value of its own type parameter. -/
def genericRecord : FunctionRecord where
  name := 2
  typeParameters := [{ id := 1, name := 4 }]
  returnType := .inline (.mk (.typeParameter 1) [] false)

/-- A function with a type parameter is read under two ids, and owns the parameter under both. The
local function of `Box` is resolved twice, under the ids 5 and 6. -/
theorem readings_agree_of_box :
    let names : NameTable := { strings := ["Box", "Case", "f", "x", "T"] }
    let record := MemberRecord.function genericRecord
    let context := ScopeContext.ofFragment ⟨2⟩ names {}
    let s := Store.empty.after (loadAll boxModule)
    (∃ declaration, record.reader ⟨context, "p"⟩ s ⟨5⟩ = .ok declaration ∧
      record.reader ⟨context, "p"⟩ s ⟨6⟩ = .ok (declaration.readdress ⟨6⟩) ∧
      declaration.typeParameters.map (·.owner) = [⟨5⟩] ∧
      (declaration.readdress ⟨6⟩).typeParameters.map (·.owner) = [⟨6⟩]) ∧
    ∃ chain s' s'' declaration, s.ownershipChain ⟨3⟩ = .ok chain ∧
      Gives (resolveLocal boxModule ⟨"p", 0⟩ chain) s (.ok ⟨5⟩) s' ∧
      Gives (resolveLocal boxModule ⟨"p", 0⟩ chain) s' (.ok ⟨6⟩) s'' ∧
      s''.get? ⟨5⟩ = some declaration ∧ s''.get? ⟨6⟩ = some (declaration.readdress ⟨6⟩) := by
  intro names record context s
  constructor
  · obtain ⟨declaration, read, owners⟩ :
      ∃ declaration, record.reader ⟨context, "p"⟩ s ⟨5⟩ = .ok declaration ∧
        declaration.typeParameters.map (·.owner) = [⟨5⟩] ∧
        (declaration.readdress ⟨6⟩).typeParameters.map (·.owner) = [⟨6⟩] := ⟨_, rfl, rfl, rfl⟩
    rcases readings_agree.1 context "p" s record ⟨5⟩ ⟨6⟩ (.ofFragment (by decide) names {}) with
      ⟨e, refused, -⟩ | ⟨declaration', read', again⟩
    · cases refused.symm.trans read
    · obtain rfl := Except.ok.inj (read'.symm.trans read)
      exact ⟨declaration', read, again, owners⟩
  · have recorded : s.Recorded := by
      obtain ⟨r, loaded⟩ := Store.exists_gives_after .empty (loadAll boxModule)
      exact (Recorded.empty.of_loading (.single (.all boxModule r loaded))).1
    obtain ⟨chain, leads, s', first, s'', second⟩ : ∃ chain, s.ownershipChain ⟨3⟩ = .ok chain ∧
        ∃ s', Gives (resolveLocal boxModule ⟨"p", 0⟩ chain) s (.ok ⟨5⟩) s' ∧
        ∃ s'', Gives (resolveLocal boxModule ⟨"p", 0⟩ chain) s' (.ok ⟨6⟩) s'' :=
      ⟨_, rfl, _, rfl, _, rfl⟩
    obtain ⟨r', t, again, agree⟩ :=
      readings_agree.2 s s' boxModule ⟨"p", 0⟩ chain _ (recorded.owned_of_ownershipChain leads)
        first
    obtain ⟨rfl, rfl⟩ := again.unique second
    rcases agree with ⟨_, failed, -⟩ |
      ⟨n, m, declaration, _, given, given', -, stored, stored', rfl, -⟩
    · cases failed
    · obtain rfl := Except.ok.inj given
      obtain rfl := Except.ok.inj given'
      exact ⟨chain, s', t, declaration, leads, first, second, stored, stored'⟩

end ClassSymbols
