import ClassSymbols.Proofs.Resolution.Agreement

/-!
# Searching for classes

While a class is resolved, the store is asked for the classes of supertypes. If the comparison of
result types reads the store, it is also asked for classes that result types mention. What is found
may differ from one class to the next, since further classes are stored in between. If two runs find
paired declarations for all that paired classes ask for, then they compute the same results for
these, up to the ids.

## Main definitions

* `Search` — what is found while a class is resolved.
* `Store.Uses` — the classes that are found for the direct supertypes of a class.
* `Store.Asks` — the class ids that the resolution of a class may ask for.
* `Accord` — two runs that find paired declarations for what paired classes ask for.

## Main statements

* `Accord.comparison` — such runs compute the results of paired classes from those of paired
  classes.
-/

namespace ClassSymbols

open Relation

abbrev Search := DeclId → ClassId → Option DeclId → Prop

namespace Store

/-- Whether a class is found for a direct supertype of another one while this one is resolved. -/
def Uses (store : Store) (finds : Search) (id parent : DeclId) : Prop :=
  ∃ data, store.IsClass id data ∧ ∃ supertype ∈ data.supertypes, ∃ k, supertype.classId? = some k ∧
    finds id k (some parent)

/-- The class ids that the resolution of a class may ask for: those of its direct supertypes. If the
comparison of result types reads the store, they are also that of the root, and those that the
supertypes and the result types of the declared members of the class and of the classes above it,
and the supertypes of classes that are found in turn, mention. -/
inductive Asks (store : Store) (relation : TypeRelation) (finds : Search) (id : DeclId) :
    ClassId → Prop
  | supertype {data : ClassData} {supertype : Ty} {k : ClassId} :
    store.IsClass id data → supertype ∈ data.supertypes →
      supertype.classId? = some k → Asks store relation finds id k
  | root : relation.ReadsStore → Asks store relation finds id .any
  | mentioned {a : DeclId} {data : ClassData} {supertype : Ty} {k : ClassId} : relation.ReadsStore →
      ReflTransGen (store.Uses finds) id a → store.IsClass a data → supertype ∈ data.supertypes →
      k ∈ supertype.classIds → Asks store relation finds id k
  | result {a member : DeclId} {members : List DeclId} {declaration : Declaration} {type : Ty}
      {k : ClassId} :
      relation.ReadsStore → ReflTransGen (store.Uses finds) id a → store.members? a = some members →
      member ∈ members → store.get? member = some declaration →
        declaration.resultType? = some type →
      k ∈ type.classIds → Asks store relation finds id k
  | further {j k : ClassId} {a : DeclId} {data : ClassData} {supertype : Ty} : relation.ReadsStore →
      Asks store relation finds id j → finds id j (some a) → store.IsClass a data →
      supertype ∈ data.supertypes → k ∈ supertype.classIds → Asks store relation finds id k

end Store

/-- A result was computed from the classes that were found for the supertypes in the end, if these
were found so all the time. -/
theorem Computation.Follows.matched_of_steady {c : Computation} {origin : Workspace}
    {log : List Computation} (h : c.Follows origin log)
    (steady : ∀ supertype ∈ c.supertypes, ∀ k, supertype.classId? = some k →
      ∀ v, c.start.LeadsTo v → v.LeadsTo c.before →
      v.store.findClass? k = c.before.store.findClass? k) :
    c.members.map (fun m => (m.supertype, m.owner)) = c.supertypes.filterMap fun supertype =>
      (supertype.classId?.bind c.before.store.findClass?).map (supertype, ·) := by
  have listed := (List.forall₂_and_left c.supertypes c.owners).2 ⟨fun _ hs => hs, h.answers⟩
  refine h.matched.trans (filterMap_zip_of_forall₂ (listed.imp ?_))
  rintro supertype owner ⟨hs, v, before, after, rfl⟩
  cases named : supertype.classId? with
  | none => rfl
  | some k => exact (steady supertype hs k named v before after).symm

/-- Two runs in which paired declarations are found for what paired classes ask for, from one class
on upwards. What is found for a class is found all the time while the class is resolved. All members
have been read from records. -/
structure Accord (R : DeclId → DeclId → Prop) (finds finds' : Search) (origin origin' : Workspace)
    (log log' : List Computation) (w w' : Workspace) (id : DeclId) (f : DeclId → DeclId) :
    Prop extends
    Aligned R origin origin' log log' w w' f where
  described : origin.store.Described
  described' : origin'.store.Described
  steady : ∀ {c k b v}, c ∈ log → finds c.owner k b → c.start.LeadsTo v → v.LeadsTo c.before →
    v.store.findClass? k = b
  steady' : ∀ {c k b v}, c ∈ log' → finds' c.owner k b → c.start.LeadsTo v → v.LeadsTo c.before →
    v.store.findClass? k = b
  alike : ∀ {a a' k}, ReflTransGen (w.store.Uses finds) id a → R a a' →
    w.store.Asks w.effective.options.relation finds a k →
    ∃ b b', finds a k b ∧ finds' a' k b' ∧ Option.Rel R b b'

namespace Accord

variable {R : DeclId → DeclId → Prop} {finds finds' : Search} {origin origin' w w' : Workspace}
  {log log' : List Computation} {id : DeclId} {f : DeclId → DeclId}
  (h : Accord R finds finds' origin origin' log log' w w' id f)
include h

section Found

variable {c : Computation} (hc : c ∈ log) (above : ReflTransGen (w.store.Uses finds) id c.owner)
  {a' : DeclId} (pair : R c.owner a')
include hc above pair

/-- What a class asks for is found alike in between. -/
theorem exists_found {k : ClassId}
    (asks : w.store.Asks w.effective.options.relation finds c.owner k) :
    ∃ b b', finds c.owner k b ∧ finds' a' k b' ∧ Option.Rel R b b' ∧
      ∀ v, c.start.LeadsTo v → v.LeadsTo c.before → v.store.findClass? k = b := by
  obtain ⟨b, b', found, found', related⟩ := h.alike above pair asks
  exact ⟨b, b', found, found', related, fun v before after => h.steady hc found before after⟩

theorem matched_eq :
    c.members.map (fun m => (m.supertype, m.owner)) = c.supertypes.filterMap fun supertype =>
    (supertype.classId?.bind c.before.store.findClass?).map (supertype, ·) := by
  obtain ⟨-, _, _, follows, -⟩ := h.run.facts.follows c hc
  obtain ⟨data, isClass, supertypes⟩ := h.run.facts.exists_isClass hc
  refine follows.matched_of_steady fun supertype hs k named v before after => ?_
  obtain ⟨b, _, -, -, -, same⟩ :=
    h.exists_found hc above pair (.supertype isClass (supertypes ▸ hs) named)
  rw [same v before after, same _ follows.resolved (.refl _)]

/-- A class whose result was used was found for a direct supertype, and is paired with one. -/
theorem exists_uses {m : SupertypeMembers} (hm : m ∈ c.members) :
    m.supertype ∈ c.supertypes ∧ w.store.Uses finds c.owner m.owner ∧ ∃ b', R m.owner b' := by
  have listed : (m.supertype, m.owner) ∈ c.members.map fun m => (m.supertype, m.owner) :=
    List.mem_map_of_mem hm
  rw [h.matched_eq hc above pair] at listed
  obtain ⟨supertype, hs, e⟩ := List.mem_filterMap.1 listed
  obtain ⟨owner, search, e⟩ := Option.map_eq_some_iff.1 e
  obtain ⟨rfl, rfl⟩ := Prod.mk.inj e
  obtain ⟨k, named, search⟩ := Option.bind_eq_some_iff.1 search
  obtain ⟨-, _, _, follows, -⟩ := h.run.facts.follows c hc
  obtain ⟨data, isClass, supertypes⟩ := h.run.facts.exists_isClass hc
  obtain ⟨b, b', found, -, related, same⟩ :=
    h.exists_found hc above pair (.supertype isClass (supertypes ▸ hs) named)
  obtain rfl := (same _ follows.resolved (.refl _)).symm.trans search
  obtain ⟨b', -, pair'⟩ := exists_of_rel_some related
  exact ⟨hs, ⟨data, isClass, m.supertype, supertypes ▸ hs, k, named, found⟩, b', pair'⟩

/-- What was found for a direct supertype was used. -/
theorem offers_of_uses {b : DeclId} (uses : w.store.Uses finds c.owner b) :
    Offers log c.owner b := by
  obtain ⟨data, isClass, supertype, hs, k, named, found⟩ := uses
  obtain ⟨-, _, _, follows, -⟩ := h.run.facts.follows c hc
  have listed : (supertype, b) ∈ c.members.map fun m => (m.supertype, m.owner) := by
    rw [h.matched_eq hc above pair, List.mem_filterMap]
    refine ⟨supertype, h.run.facts.isClass hc isClass ▸ hs, ?_⟩
    rw [named, Option.bind_some, h.steady hc found follows.resolved (.refl _)]
    rfl
  obtain ⟨m, hm, e⟩ := List.mem_map.1 listed
  exact ⟨c, hc, rfl, m, hm, congrArg Prod.snd e⟩

end Found

section Above

variable (start : ∃ c ∈ log, c.owner = id) {id' : DeclId} (pair : R id id')
include start pair

/-- If a class has a result then so have the classes above it, which are paired. -/
theorem exists_result {a : DeclId} (above : ReflTransGen (w.store.Uses finds) id a) :
    ∃ c ∈ log, c.owner = a ∧ ∃ a', R a a' := by
  induction above with
  | refl =>
    obtain ⟨c, hc, owner⟩ := start
    exact ⟨c, hc, owner, id', pair⟩
  | tail above uses ih =>
    obtain ⟨c, hc, rfl, a', pair'⟩ := ih
    obtain ⟨_, hd, owner, m, hm, rfl⟩ := h.offers_of_uses hc above pair' uses
    obtain rfl := h.run.facts.owners _ hd _ hc owner
    obtain ⟨-, -, pair''⟩ := h.exists_uses hc above pair' hm
    obtain ⟨c', hc', owner', -⟩ := h.run.facts.exists_offered hc h.run.fresh hm
    exact ⟨c', hc', owner', pair''⟩

/-- If a class has a result then no class above it is above itself. -/
theorem not_uses_self {a : DeclId} (above : ReflTransGen (w.store.Uses finds) id a) :
    ¬TransGen (w.store.Uses finds) a a := by
  intro cycle
  refine h.run.history.not_offers_self h.run.fresh a ?_
  have path {b : DeclId} (path : TransGen (w.store.Uses finds) a b) :
      TransGen (Offers log) a b := by
    have offers {b b' : DeclId} (above' : ReflTransGen (w.store.Uses finds) a b)
      (uses : w.store.Uses finds b b') :
        Offers log b b' := by
      obtain ⟨c, hc, rfl, a', pair'⟩ := h.exists_result start pair (above.trans above')
      exact h.offers_of_uses hc (above.trans above') pair' uses
    induction path with
    | single uses => exact .single (offers .refl uses)
    | tail earlier uses ih => exact .tail ih (offers earlier.to_reflTransGen uses)
  exact path cycle

end Above

theorem uses_of_offers {a b : DeclId} (above : ReflTransGen (w.store.Uses finds) id a)
    (pair : ∃ a', R a a') (path : ReflTransGen (Offers log) a b) :
    ReflTransGen (w.store.Uses finds) a b ∧ ∃ b', R b b' := by
  induction path with
  | refl => exact ⟨.refl, pair⟩
  | tail _ offers ih =>
    obtain ⟨uses, _, pair'⟩ := ih
    obtain ⟨c, hc, rfl, m, hm, rfl⟩ := offers
    obtain ⟨-, step, pair''⟩ := h.exists_uses hc (above.trans uses) pair' hm
    exact ⟨uses.tail step, pair''⟩

/-- The declared members and the supertypes above a class mention nothing but what the class asks
for. -/
theorem grasps (looks : w.effective.options.relation.ReadsStore) {a : DeclId}
    (above : ReflTransGen (w.store.Uses finds) id a) (pair : ∃ a', R a a') :
    Grasps log w (w.store.Asks w.effective.options.relation finds a) a where
  any := .root looks
  supertypes hc path m hm k hk := by
    obtain ⟨uses, _, pair'⟩ := h.uses_of_offers above pair path
    obtain ⟨data, isClass, supertypes⟩ := h.run.facts.exists_isClass hc
    obtain ⟨hs, -⟩ := h.exists_uses hc (above.trans uses) pair' hm
    exact .mentioned looks uses isClass (supertypes ▸ hs) hk
  results hc path _ hx _ _ stored ht k hk :=
    .result looks (h.uses_of_offers above pair path).1 (h.run.facts.listed hc) hx stored ht hk

section Pair

variable {c c' : Computation} (hc : c ∈ log) (hc' : c' ∈ log')
  (above : ReflTransGen (w.store.Uses finds) id c.owner) (pair : R c.owner c'.owner)
include hc hc' above pair

theorem findClass?_related {k : ClassId}
    (asks : w.store.Asks w.effective.options.relation finds c.owner k) :
    Option.Rel R (c.before.store.findClass? k) (c'.before.store.findClass? k) := by
  obtain ⟨-, _, _, follows, -⟩ := h.run.facts.follows c hc
  obtain ⟨-, _, _, follows', -⟩ := h.run'.facts.follows c' hc'
  obtain ⟨b, b', -, found', related, same⟩ := h.exists_found hc above pair asks
  rw [same _ follows.resolved (.refl _), h.steady' hc' found' follows'.resolved (.refl _)]
  exact related

/-- The results of paired classes were computed from those of paired classes. -/
theorem members_related :
    List.Forall₂ (fun m m' : SupertypeMembers =>
      m'.supertype = m.supertype.rename f ∧ R m.owner m'.owner)
      c.members c'.members := by
  have matched : c'.members.map (fun m => (m.supertype, m.owner)) =
    c'.supertypes.filterMap fun supertype =>
      (supertype.classId?.bind c'.before.store.findClass?).map (supertype, ·) := by
    obtain ⟨-, _, _, follows', -⟩ := h.run'.facts.follows c' hc'
    obtain ⟨data, isClass, supertypes⟩ := h.run.facts.exists_isClass hc
    refine follows'.matched_of_steady fun supertype' hs' k named v before after => ?_
    rw [h.supertypes_eq hc hc' pair] at hs'
    obtain ⟨supertype, hs, rfl⟩ := List.mem_map.1 hs'
    rw [Ty.classId?_rename] at named
    obtain ⟨_, b', -, found', -⟩ :=
    h.exists_found hc above pair (.supertype isClass (supertypes ▸ hs) named)
    rw [h.steady' hc' found' before after, h.steady' hc' found' follows'.resolved (.refl _)]
  have related : List.Forall₂ (fun p p' : Ty × DeclId => p'.1 = p.1.rename f ∧ R p.2 p'.2)
      (c.members.map fun m => (m.supertype, m.owner))
        (c'.members.map fun m => (m.supertype, m.owner)) := by
    rw [h.matched_eq hc above pair, matched, h.supertypes_eq hc hc' pair]
    have listed : List.Forall₂ (fun s s' => s' = s.rename f ∧ s ∈ c.supertypes) c.supertypes
        (c.supertypes.map (Ty.rename f)) := by
      rw [List.forall₂_map_right_iff]
      exact List.forall₂_same.2 fun s hs => ⟨rfl, hs⟩
    refine List.rel_filterMap (fun {s s'} same => ?_) listed
    obtain ⟨rfl, hs⟩ := same
    rw [Ty.classId?_rename]
    obtain ⟨data, isClass, supertypes⟩ := h.run.facts.exists_isClass hc
    cases named : s.classId? with
    | none => exact .none
    | some k =>
      have alike :=
        h.findClass?_related hc hc' above pair (.supertype isClass (supertypes ▸ hs) named)
      simp only [Option.bind_some]
      generalize c.before.store.findClass? k = a, c'.before.store.findClass? k = b at alike
      cases alike with
      | none => exact .none
      | some alike => exact .some ⟨rfl, alike⟩
  rwa [List.forall₂_map_left_iff, List.forall₂_map_right_iff] at related

/-- The stores find renamed classes for all that is asked for. -/
theorem findsTwins (looks : w.effective.options.relation.ReadsStore) : FindsTwins f c.before.store
    c'.before.store (w.store.Asks w.effective.options.relation finds c.owner) := by
  obtain ⟨-, _, history, follows, -⟩ := h.run.facts.follows c hc
  obtain ⟨-, _, history', follows', -⟩ := h.run'.facts.follows c' hc'
  have later := ((h.run.facts.finished c hc).1.trans (h.run.facts.finished c hc).2).store.toExtends
  have later' :=
    ((h.run'.facts.finished c' hc').1.trans (h.run'.facts.finished c' hc').2).store.toExtends
  refine
    { injective := h.injective
      any := .root looks
      found := fun {k} asks => ?_
      closed := fun {k a data} asks search isClass supertype hs j hj => ?_ }
  · have alike := h.findClass?_related hc hc' above pair asks
    have indexed {a : DeclId} := (history.described h.run.fresh h.described).indexed k a
    have indexed' {a : DeclId} := (history'.described h.run'.fresh h.described').indexed k a
    generalize c.before.store.findClass? k = a,
      c'.before.store.findClass? k = b at alike indexed indexed'
    cases alike with
    | none => exact .none
    | @some a b pair =>
      obtain ⟨_, declaration, stored, -⟩ := indexed rfl
      obtain ⟨_, declaration', stored', -⟩ := indexed' rfl
      exact .some ⟨(h.takes (.pair pair)).symm,
        later.twin later' ⟨declaration, stored⟩ ⟨declaration', stored'⟩ (h.twin pair)⟩
  · obtain ⟨b, _, found, -, -, same⟩ := h.exists_found hc above pair asks
    obtain rfl := (same _ follows.resolved (.refl _)).symm.trans search
    obtain ⟨data', isClass', same⟩ := later.isClass isClass
    exact .further looks asks found isClass' (ClassData.supertypes_eq same ▸ hs) hj

end Pair

/-- Runs that find paired declarations compute the results of paired classes from those of paired
classes. -/
theorem comparison (natural : w.effective.options.relation.Natural) :
    Comparison R (fun a => ReflTransGen (w.store.Uses finds) id a ∧ ∃ a', R a a')
    (w.store.Asks w.effective.options.relation finds) origin origin' log log' w w' f where
  toAligned := h.toAligned
  upward above offers := by
    obtain ⟨uses, pair⟩ := h.uses_of_offers above.1 above.2 (.single offers)
    exact ⟨above.1.trans uses, pair⟩
  found hc hc' above pair := h.members_related hc hc' above.1 pair
  silent hc hc' _ _ pair x hx _ := by
    have listed := h.run.facts.listed hc
    have listed' := h.run'.facts.listed hc'
    obtain ⟨y, hy, pair'⟩ := exists_mem_of_forall₂_left (h.listed pair listed listed') hx
    rw [h.takes (.pair pair')]
    exact ⟨(h.run.history.described h.run.fresh h.described).overridden_eq_nil listed hx,
      (h.run'.history.described h.run'.fresh h.described').overridden_eq_nil listed' hy⟩
  natural := natural
  grasps looks _ above := h.grasps looks above.1 above.2
  finds looks _ _ hc hc' above pair := h.findsTwins hc hc' above.1 pair looks

end Accord

end ClassSymbols
