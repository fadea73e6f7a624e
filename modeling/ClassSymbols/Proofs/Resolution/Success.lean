import ClassSymbols.Proofs.Resolution.Echoes

/-!
# Success and earlier questions

A query that succeeds at first succeeds whatever has been asked before. A query that succeeds later
succeeds at first too, unless the class has so many classes above it that there is no room for them:
questions about the classes above make room, since a class that has a result is not resolved again.
A pile of classes, each of which extends the next one, shows where this happens.

## Main definitions

* `Store.Resolves` — whether a query succeeds after some questions.
* `Workspace.Piled` — whether first supertypes lead through a number of classes without results.
* `Store.pile` — a pile of classes without members.

## Main statements

* `resolves_pile_iff`, `resolves_pile_after` — the room that a class in a pile needs, at first and
  later.
* `resolves_alike` — a query succeeds at first and after questions alike, up to the room that it
  needs.
-/

namespace ClassSymbols

open Relation

/-- Whether a query for a class succeeds once some questions have been asked. -/
def Store.Resolves (store : Store) (options : SynthesisOptions) (queries : List ClassQuery)
    (id : DeclId) : Prop :=
  ∃ result w', Gives (effectiveSynthesis id) ((Workspace.initial store options).afterAll queries)
    (.ok result) w'

instance (store : Store) (options : SynthesisOptions) (queries : List ClassQuery) (id : DeclId) :
    Decidable (store.Resolves options queries id) :=
  match h : effectiveSynthesis id ((Workspace.initial store options).afterAll queries) with
  | .ok result w' => isTrue ⟨result, w', gives_ok_iff.2 h⟩
  | .error _ _ => isFalse fun ⟨_, _, succeeds⟩ => by cases (succeeds.unique (gives_error_iff.2 h)).1

/-! ## Piles -/

/-- Whether the first supertypes lead from a class through a number of further classes, one after
the other, and none of them has a result. -/
inductive Workspace.Piled (w : Workspace) : Nat → DeclId → Prop where
  | last {id : DeclId} {data : ClassData} (isClass : w.store.IsClass id data)
      (miss : w.effective.cache.get? (id, data.supertypes) = none) : Piled w 0 id
  | step {n : Nat} {id owner : DeclId} {data : ClassData} {supertype : Ty} {rest : List Ty}
      (isClass : w.store.IsClass id data)
      (miss : w.effective.cache.get? (id, data.supertypes) = none)
      (first : data.supertypes = supertype :: rest)
      (found : supertype.classId?.bind w.store.findClass? = some owner)
      (next : Piled w n owner) : Piled w (n + 1) id

/-- There is no room for a pile that is higher than the room. -/
theorem Workspace.Piled.exists_error {w w' : Workspace} {room : Nat} {visiting : List DeclId}
    {id : DeclId} {r : Except SymbolError OverrideSynthesis} (h : w.Piled room id)
    (gives : Gives (resolveWithin room visiting id) w r w') : ∃ e, r = .error e := by
  induction h generalizing visiting r w' with
  | last isClass miss =>
    unfold resolveWithin at gives
    rcases gives_request_of_missed isClass miss gives with failed | ⟨_, full⟩
    · exact failed
    · exact ⟨_, (gives_throw_iff.1 full).1⟩
  | step isClass miss first found _ ih =>
    unfold resolveWithin at gives
    rcases gives_request_of_missed isClass miss gives with failed | ⟨_, made⟩
    · exact failed
    rcases gives_bind_iff.1 made with ⟨e, rfl, -⟩ | ⟨members, w₁, supers, -⟩
    · exact ⟨e, rfl⟩
    -- The first supertype is resolved in the same workspace, before anything else.
    rw [first] at supers
    have supers := gives_get_bind_iff.1 supers
    simp only [found] at supers
    rcases gives_bind_iff.1 supers with ⟨_, failed, -⟩ | ⟨synthesis, _, resolved, -⟩
    · cases failed
    · obtain ⟨_, failed⟩ := ih resolved
      cases failed

def layerName (i : Nat) : String := String.ofList (List.replicate i 'C')

theorem layerName_injective : Function.Injective layerName := by
  intro i j same
  simpa [layerName] using congrArg String.length same

/-- The classes of a pile, each of which extends the next one. -/
def Declaration.layer (height i : Nat) : Declaration :=
  .plainClass ⟨i⟩ (layerName i) (if i < height then [layerName (i + 1)] else []) []

def Store.pile (height : Nat) : Store :=
  Store.empty.receive ⟨height + 1⟩ ((List.range' 1 height).map (Declaration.layer height))

namespace Store

variable {height i : Nat}

theorem mem_layers_iff {declaration : Declaration} :
    declaration ∈ (List.range' 1 height).map (Declaration.layer height) ↔
      ∃ i, (0 < i ∧ i ≤ height) ∧ Declaration.layer height i = declaration := by
  simp only [List.mem_map, List.mem_range'_1]
  refine exists_congr fun i => and_congr_left fun _ => ?_
  omega

theorem nodup_layers :
    (((List.range' 1 height).map (Declaration.layer height)).map (·.id)).Nodup := by
  rw [List.map_map]
  exact List.Nodup.map (fun i j same => congrArg DeclId.number same) List.nodup_range'

theorem wellFormed_pile (height : Nat) : (pile height).WellFormed := by
  have wider : { empty with next := ⟨height + 1⟩ : Store }.WellFormed := ⟨nofun, nofun⟩
  apply wider.insertAll
  intro declaration hd
  obtain ⟨i, ⟨-, le⟩, rfl⟩ := mem_layers_iff.1 hd
  exact Nat.lt_succ_of_le le

theorem eager_pile (height : Nat) : (pile height).Eager := by
  apply eager_receive_empty
  intro declaration hd
  obtain ⟨i, -, rfl⟩ := mem_layers_iff.1 hd
  rfl

theorem registered_pile (height : Nat) : (pile height).Registered := by
  apply registered_receive_empty nodup_layers
  intro declaration hd
  obtain ⟨i, -, rfl⟩ := mem_layers_iff.1 hd
  exact nofun

theorem exists_isClass_pile (hi : 0 < i ∧ i ≤ height) : ∃ data, (pile height).IsClass ⟨i⟩ data ∧
    data.supertypes = if i < height then [.ofClass ⟨"", layerName (i + 1), false⟩] else [] := by
  refine ⟨_, isClass_receive_empty nodup_layers (mem_layers_iff.2 ⟨i, hi, rfl⟩) rfl, ?_⟩
  by_cases inner : i < height <;> simp [inner]

theorem listed_pile {id : DeclId} {declared : List DeclId}
    (known : (pile height).members? id = some declared) :
    ∀ member ∈ declared, member.number < (pile height).next.number := by
  obtain ⟨declaration, hd, -, rfl⟩ := exists_listed_of_receive_empty known
  obtain ⟨i, -, rfl⟩ := mem_layers_iff.1 hd
  exact nofun

theorem findClass?_pile (hi : 0 < i ∧ i ≤ height) :
    (pile height).findClass? ⟨"", layerName i, false⟩ = some ⟨i⟩ := by
  have found : ((pile height).findClass? ⟨"", layerName i, false⟩).isSome :=
    isSome_findClass?_insertAll (.inr ⟨_, mem_layers_iff.2 ⟨i, hi, rfl⟩, _, rfl, rfl⟩)
  rcases findClass?_insertAll { empty with next := ⟨height + 1⟩ }
    ((List.range' 1 height).map (Declaration.layer height))
    ⟨"", layerName i, false⟩ with same | ⟨other, ho, data, hc, named, same⟩
  · cases found.symm.trans (congrArg Option.isSome same)
  · obtain ⟨j, -, rfl⟩ := mem_layers_iff.1 ho
    obtain rfl := Option.some.inj hc
    obtain rfl := layerName_injective (congrArg ClassId.relative named)
    exact same

/-- Each class of a pile is below the next one alone. -/
theorem parent_pile_iff (hi : 0 < i ∧ i ≤ height) {parent : DeclId} :
    (pile height).Parent ⟨i⟩ parent ↔ i < height ∧ parent = ⟨i + 1⟩ := by
  obtain ⟨data, isClass, supertypes⟩ := exists_isClass_pile hi
  rw [isClass.parent_iff, supertypes]
  by_cases inner : i < height
  · have found : (Ty.ofClass ⟨"", layerName (i + 1), false⟩).classId?.bind
      (pile height).findClass? = some ⟨i + 1⟩ :=
      findClass?_pile ⟨Nat.succ_pos i, inner⟩
    simp [inner, found, eq_comm]
  · simp [inner]

/-- Going up in a pile, the ids increase. -/
theorem lt_of_parent_pile {a b : DeclId} (step : (pile height).Parent a b) :
    a.number < b.number := by
  obtain ⟨_, ⟨declaration, stored, -⟩, -⟩ := id step
  obtain ⟨listed, rfl⟩ := mem_of_get?_receive_empty stored
  obtain ⟨i, hi, rfl⟩ := mem_layers_iff.1 listed
  obtain ⟨-, rfl⟩ := (parent_pile_iff hi).1 step
  exact Nat.lt_succ_self i

theorem not_cyclic_pile (id : DeclId) : ¬ (pile height).Cyclic id := by
  rintro ⟨other, -, cycle⟩
  have increasing {a b : DeclId} (path : TransGen (pile height).Parent a b) : a.number < b.number :=
    TransGen.trans_induction_on path lt_of_parent_pile fun _ _ => Nat.lt_trans
  exact Nat.lt_irrefl _ (increasing cycle)

theorem readable_pile (hi : 0 < i ∧ i ≤ height) : (pile height).Readable ⟨i⟩ := by
  obtain ⟨data, isClass, -⟩ := exists_isClass_pile hi
  exact (registered_pile height).readable (eager_pile height) (indexed_receive_empty nodup_layers)
    isClass

/-- No more classes lie above a class of a pile than the pile has. -/
theorem length_le_of_pile {path : List DeclId} (hi : 0 < i ∧ i ≤ height)
    (chain : List.IsChain (pile height).Parent (⟨i⟩ :: path)) : i + path.length ≤ height := by
  induction path generalizing i with
  | nil => exact hi.2
  | cons parent path ih =>
    obtain ⟨step, chain⟩ := List.isChain_cons_cons.1 chain
    obtain ⟨inner, rfl⟩ := (parent_pile_iff hi).1 step
    have := ih ⟨Nat.succ_pos i, inner⟩ chain
    rw [List.length_cons]
    omega

/-- Nothing has a result at first, so the classes of a pile are piled. -/
theorem piled_initial (options : SynthesisOptions) {n : Nat} (positive : 0 < i)
    (hn : i + n ≤ height) :
    (Workspace.initial (pile height) options).Piled n ⟨i⟩ := by
  obtain ⟨data, isClass, supertypes⟩ := exists_isClass_pile ⟨positive, Nat.le_of_add_right_le hn⟩
  induction n generalizing i data with
  | zero => exact .last isClass rfl
  | succ n ih =>
    rw [if_pos (by omega)] at supertypes
    have above : 0 < i + 1 ∧ i + 1 ≤ height := by omega
    obtain ⟨data', isClass', supertypes'⟩ := exists_isClass_pile above
    exact .step isClass rfl supertypes (findClass?_pile above)
      (ih above.1 (by omega) data' isClass' supertypes')

end Store

/-! ## Room for a pile -/

section Pile

variable {height i : Nat} (options : SynthesisOptions) (hi : 0 < i ∧ i ≤ height)
include hi

/-- A class of a pile is resolved at first if there is room for it and the classes above it, and
only then. -/
theorem resolves_pile_iff :
    (Store.pile height).Resolves options [] ⟨i⟩ ↔ height < i + Limits.ownershipDepth := by
  constructor
  · rintro ⟨result, w', gives⟩
    by_contra high
    obtain ⟨_, failed⟩ :=
      (Store.piled_initial options hi.1 (Nat.le_of_not_lt high)).exists_error gives
    cases failed
  · intro room
    have initial := Workspace.grounded_initial (Store.wellFormed_pile height) options
    rcases initial.exists_gives_or_deep (Store.eager_pile height) Store.listed_pile
      (Store.readable_pile hi)
      (Store.not_cyclic_pile ⟨i⟩) with resolved | ⟨-, path, chain, long⟩
    · exact resolved
    · have := Store.length_le_of_pile hi chain
      rw [List.length_cons] at long
      omega

/-- Once the class above it has been asked for, a class of a pile needs no room for those further
above. -/
theorem resolves_pile_after (room : height ≤ i + Limits.ownershipDepth) :
    (Store.pile height).Resolves options [.synthesis ⟨i + 1⟩] ⟨i⟩ := by
  have initial := Workspace.grounded_initial (Store.wellFormed_pile height) options
  have grounded := initial.afterAll (Store.eager_pile height) Store.listed_pile [.synthesis ⟨i + 1⟩]
  refine grounded.exists_gives_of_closed (Store.eager_pile height) Store.listed_pile
    (Store.readable_pile hi) ?_ (by decide)
  intro parent step
  obtain ⟨inner, rfl⟩ := (Store.parent_pile_iff hi).1 step
  have above : 0 < i + 1 ∧ i + 1 ≤ height := ⟨Nat.succ_pos i, inner⟩
  obtain ⟨result, w', gives⟩ := (resolves_pile_iff options above).2 (by omega)
  obtain ⟨r, asked⟩ :=
    (Workspace.initial (Store.pile height) options).exists_gives_after
      (ClassQuery.synthesis ⟨i + 1⟩).ask
  obtain ⟨-, left⟩ := asked.unique (gives.map Answer.synthesis)
  have known :=
    ((initial.verdict (Store.eager_pile height) Store.listed_pile gives).resolved result rfl).2
  exact Option.isSome_of_mem (left ▸ known)

end Pile

/-! ## Success -/

/-- Let the members of all classes be listed, by ids that have been given out, and let questions be
asked. A query that succeeds at first succeeds afterwards. A query that succeeds afterwards succeeds
at first, unless the supertypes of the class lead through more classes than a resolution has room
for, the class itself included; then it may be refused. -/
theorem resolves_alike {store : Store} (wf : store.WellFormed) (eager : store.Eager)
    (listed : ∀ {id declared}, store.members? id = some declared →
      ∀ member ∈ declared, member.number < store.next.number)
    (options : SynthesisOptions) (queries : List ClassQuery) (id : DeclId) :
    (store.Resolves options [] id → store.Resolves options queries id) ∧
    (store.Resolves options queries id → store.Resolves options [] id ∨
      (∃ reason w', Gives (effectiveSynthesis id) (Workspace.initial store options)
        (.error (.malformedChain reason)) w') ∧
      ∃ path, List.IsChain store.Parent (id :: path) ∧
        Limits.ownershipDepth < (id :: path).length) := by
  have initial := Workspace.grounded_initial wf options
  have grounded := initial.afterAll eager listed queries
  constructor
  · rintro ⟨result, w', gives⟩
    have covers :
        ((Workspace.initial store options).afterAll queries).Covers (.initial store options) := by
      intro x known
      simp [Workspace.result?_initial] at known
    obtain ⟨-, echoed⟩ := (Workspace.echoRule eager listed).resolveWithin gives initial
    obtain ⟨result', u', run, -⟩ := echoed result rfl _ grounded covers
    exact ⟨result', u', run⟩
  · rintro ⟨result, w', gives⟩
    obtain ⟨founded, -⟩ := (grounded.verdict eager listed gives).resolved result rfl
    exact initial.exists_gives_or_deep eager listed founded.readable founded.not_cyclic

/-- The class `C` extends `B`, which extends `A`, and `D` lists a member that is not stored. After
questions about `B` and `D`, the class `C` is resolved as at first, and `D` is not resolved as at
first. -/
theorem resolves_alike_of_four_classes :
    let declarations :=
      [.plainClass ⟨1⟩ "A" [] [⟨5⟩], .plainClass ⟨2⟩ "B" ["A"] [], .plainClass ⟨3⟩ "C" ["B"] [],
      .plainClass ⟨4⟩ "D" [] [⟨6⟩], .plainFunction ⟨5⟩ ⟨1⟩ .nullableAny]
    let store := Store.empty.receive ⟨7⟩ declarations
    store.Resolves {} [.members ⟨2⟩, .synthesis ⟨4⟩] ⟨3⟩ ∧
    ¬ store.Resolves {} [.members ⟨2⟩, .synthesis ⟨4⟩] ⟨4⟩ := by
  intro declarations store
  have sound : store.Sound := Store.sound_receive_empty (by decide) (by decide) (by decide)
  have nodup : (declarations.map (·.id)).Nodup := by decide
  have eager : store.Eager := Store.eager_receive_empty (by decide)
  have listed : Declaration.plainClass ⟨4⟩ "D" [] [⟨6⟩] ∈ declarations := by simp [declarations]
  have d : store.IsClass ⟨4⟩ _ := Store.isClass_receive_empty nodup listed rfl
  have alike (id : DeclId) :=
    resolves_alike sound.toWellFormed eager sound.listed_allocated {} [.members ⟨2⟩, .synthesis ⟨4⟩]
      id
  refine ⟨(alike ⟨3⟩).1 (by decide +kernel), fun later => ?_⟩
  rcases (alike ⟨4⟩).2 later with first | ⟨-, path, chain, long⟩
  · exact absurd first (by decide +kernel)
  · cases path with
    | nil => exact absurd long (by decide)
    | cons parent path => simpa using d.parent_iff.1 (List.isChain_cons_cons.1 chain).1

/-- The lowest class of a pile of 257 classes is refused at first, and resolved once the class above
it has been asked for. And ids that have not been given out are given to fake overrides: a member
that is listed under such an id is not stored at first and then is, and a class that is stored under
such an id is resolved at first and then is replaced. -/
theorem not_resolves_alike :
    let pile := Store.pile 257
    let declarations := [.plainClass ⟨1⟩ "A" [] [⟨2⟩], .plainFunction ⟨2⟩ ⟨1⟩ .nullableAny,
      .plainClass ⟨3⟩ "B" ["A"] []]
    let dangling := Store.empty.receive ⟨5⟩ (declarations ++ [.plainClass ⟨4⟩ "C" [] [⟨5⟩]])
    let unreserved := Store.empty.receive ⟨4⟩ (declarations ++ [.plainClass ⟨4⟩ "C" [] []])
    (pile.Eager ∧ ¬ pile.Resolves {} [] ⟨1⟩ ∧ pile.Resolves {} [.synthesis ⟨2⟩] ⟨1⟩) ∧
      (dangling.Eager ∧ ¬ dangling.Resolves {} [] ⟨4⟩ ∧ dangling.Resolves {} [.synthesis ⟨3⟩] ⟨4⟩) ∧
      unreserved.Eager ∧ unreserved.Resolves {} [] ⟨4⟩ ∧
      ¬ unreserved.Resolves {} [.synthesis ⟨3⟩] ⟨4⟩ := by
  intro pile declarations dangling unreserved
  have lowest : 0 < 1 ∧ 1 ≤ 257 := by decide
  refine ⟨⟨Store.eager_pile 257, ?_, ?_⟩, ⟨Store.eager_receive_empty (by decide), ?_, ?_⟩,
    Store.eager_receive_empty (by decide), ?_, ?_⟩
  · exact mt (resolves_pile_iff {} lowest).1 (by decide)
  · exact resolves_pile_after {} lowest (by decide)
  all_goals decide +kernel

end ClassSymbols
