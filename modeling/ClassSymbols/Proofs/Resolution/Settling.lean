import ClassSymbols.Proofs.Loading.Counterparts
import ClassSymbols.Proofs.Resolution.Consults

/-!
# Settled runs on one module

Let two runs on one loaded module find counterparts for what the resolution of a class consults,
from their first results on. Then the runs find counterparts while the class and its ancestors are
resolved.

## Main definitions

* `Settlement` — two runs that find counterparts for what the resolution of a class consults.

## Main statements

* `pairs_of_counterparts` — counterparts are pairs.
* `Settlement.accord` — such runs find counterparts for what counterparts ask for.
-/

namespace ClassSymbols

open Relation

theorem Declaration.resultType?_rename (f : DeclId → DeclId) (declaration : Declaration) :
    (declaration.rename f).resultType? = declaration.resultType?.map (Ty.rename f) := by
  obtain ⟨_, _, _, _, _, kind⟩ := declaration
  cases kind <;> rfl

theorem Declaration.resultType?_silent (declaration : Declaration) :
    declaration.silent.resultType? = declaration.resultType? := by
  obtain ⟨_, _, _, _, _, kind⟩ := declaration
  cases kind <;> rfl

variable {store : Store} {origin origin' u u' w w' : Workspace} {log log' : List Computation}
  {id id' : DeclId} {f : DeclId → DeclId}

/-- A run on a loaded module leads to a store that was reached from the store of the module. -/
theorem Run.explored (run : Run origin log w) (explored : store.Explored origin.store) :
    store.Explored w.store where
  loaded := explored.loaded
  evolves := explored.evolves.trans run.facts.later.store
  sound := run.facts.sound
  described := run.history.described run.fresh explored.described

/-- No fake override has a counterpart. -/
theorem Run.not_counterpart (run : Run origin log w) (explored : store.Explored origin.store)
    {c : Computation} (hc : c ∈ log) {fake : Declaration} (hf : fake ∈ c.synthesis.pending)
    {t : Store} {y : DeclId} :
    ¬Counterpart store.next w.store t fake.id y := by
  intro h
  cases h with
  | shared below =>
    obtain ⟨-, before, history, -, -⟩ := run.facts.follows c hc
    have grown := explored.evolves.trans (history.facts run.fresh).later.store
    have := (run.facts.bounds hc hf).1
    have := grown.next_le
    omega
  | member _ known _ at_x _ => exact run.facts.hidden c hc fake hf known (List.mem_of_getElem? at_x)

/-- Counterparts are pairs. -/
theorem pairs_of_counterparts (run : Run origin log w) (run' : Run origin' log' w')
    (explored : store.Explored origin.store) (explored' : store.Explored origin'.store) :
    Pairs (Counterpart store.next w.store w'.store) log log' w' where
  biUnique := by
    constructor
    · intro x y z h h'
      exact h.symm.unique (run'.explored explored') h'.symm
    · intro x y z h h'
      exact h.unique (run.explored explored) h'
  below h := h.lt_next (run'.explored explored')
  apart hc fake hf y h := run.not_counterpart explored hc hf h
  apart' hc fake hf x h := run'.not_counterpart explored' hc hf h.symm

/-- Two runs whose results start alike are aligned by the counterparts. -/
theorem aligned_of_counterparts (run : Run origin log w) (run' : Run origin' log' w')
    (explored : store.Explored w.store) (explored' : store.Explored w'.store)
    (options : w'.effective.options = w.effective.options) (injective : Function.Injective f)
    (takes : ∀ {x y}, Matched (Counterpart store.next w.store w'.store) log log' x y → f x = y) :
    Aligned (Counterpart store.next w.store w'.store) origin origin' log log' w w' f where
  run := run
  run' := run'
  options := options
  injective := injective
  fixed := takes (.pair (.shared explored.loaded.valid))
  takes := takes
  twin pair := pair.twin explored explored' fun pair => takes (.pair pair)
  listed pair known known' :=
    pair.members explored explored' (fun pair => takes (.pair pair)) known known'

/-- Two runs with results of two counterparts, after which counterparts are found for all that the
resolution of the first one consults, as before the first resolution of the class or an ancestor. -/
structure Settlement (store : Store) (origin origin' u u' : Workspace) (log log' : List Computation)
    (w w' : Workspace) (id id' : DeclId) (f : DeclId → DeclId) : Prop extends
    Aligned (Counterpart store.next w.store w'.store) origin origin' log log' w w' f where
  described : origin.store.Described
  described' : origin'.store.Described
  explored : store.Explored w.store
  settled : Settled u w log id
  settled' : Settled u' w' log' id'
  known' : ∃ c ∈ log', c.owner = id'
  pair : Counterpart store.next w.store w'.store id id'
  alike : ∀ {k}, w.Consults id k →
    Option.Rel (Counterpart store.next w.store w'.store) (w.store.findClass? k)
      (w'.store.findClass? k)

namespace Settlement

variable (h : Settlement store origin origin' u u' log log' w w' id id' f)
include h

theorem findClass?_related {s s' : Option ClassId} (same : s' = s) (consulted : ∀ {k}, s = some k →
      w.Consults id k) :
    Option.Rel (Counterpart store.next w.store w'.store) (s.bind w.store.findClass?)
      (s'.bind w'.store.findClass?) := by
  subst same
  cases s' with
  | none => exact .none
  | some k => exact h.alike (consulted rfl)

/-- Ancestors have counterparts, which are ancestors of the counterpart. -/
theorem exists_above {a : DeclId} (above : ReflTransGen w.store.Parent id a) :
    ∃ a', Counterpart store.next w.store w'.store a a' ∧ ReflTransGen w'.store.Parent id' a' := by
  induction above with
  | refl => exact ⟨id', h.pair, .refl⟩
  | @tail a b above parent ih =>
    obtain ⟨a', pair, above'⟩ := ih
    obtain ⟨data, isClass, supertype, hs, found⟩ := parent
    obtain ⟨data', isClass', supertypes⟩ := h.exists_isClass pair isClass
    have related :=
      h.findClass?_related (Ty.classId?_rename f supertype) (.supertype above isClass hs)
    rw [found] at related
    obtain ⟨b', found', pair'⟩ := exists_of_rel_some related
    refine ⟨b', pair', above'.tail ⟨data', isClass', supertype.rename f, ?_, found'⟩⟩
    rw [supertypes]
    exact List.mem_map_of_mem hs

theorem above_of_counterpart {a a' : DeclId} (above : ReflTransGen w.store.Parent id a)
    (pair : Counterpart store.next w.store w'.store a a') :
    ReflTransGen w'.store.Parent id' a' := by
  obtain ⟨b', pair', above'⟩ := h.exists_above above
  exact pair.unique h.explored pair' ▸ above'

/-- What the resolution of a class consults, that of its counterpart does. -/
theorem consults_of_counterpart {k : ClassId} (consulted : w.Consults id k) :
    w'.Consults id' k := by
  have relation : w.effective.options.relation.ReadsStore →
    w'.effective.options.relation.ReadsStore :=
    fun looks => h.options ▸ looks
  induction consulted with
  | supertype above isClass hs named =>
    obtain ⟨a', pair, above'⟩ := h.exists_above above
    obtain ⟨data', isClass', supertypes⟩ := h.exists_isClass pair isClass
    refine .supertype above' isClass' ?_ ((Ty.classId?_rename f _).trans named)
    rw [supertypes]
    exact List.mem_map_of_mem hs
  | root looks => exact .root (relation looks)
  | mentioned looks above isClass hs hk =>
    obtain ⟨a', pair, above'⟩ := h.exists_above above
    obtain ⟨data', isClass', supertypes⟩ := h.exists_isClass pair isClass
    refine .mentioned (relation looks) above' isClass' ?_ ((Ty.mem_classIds_rename f _).2 hk)
    rw [supertypes]
    exact List.mem_map_of_mem hs
  | result looks above listed hm stored ht hk =>
    obtain ⟨a', pair, above'⟩ := h.exists_above above
    obtain ⟨c', hc', rfl⟩ := h.run'.facts.exists_result h.settled' h.run'.fresh h.known' above'
    have related := h.listed pair listed (h.run'.facts.listed hc')
    obtain ⟨y, hy, pair'⟩ := exists_mem_of_forall₂_left related hm
    have twin := h.twin pair'
    rw [stored] at twin
    obtain ⟨declaration', stored', twin⟩ := exists_of_rel_some twin
    have eq := congrArg Declaration.resultType? (twin.eq (Declaration.isCallable_of_resultType? ht))
    refine .result (relation looks) above' (h.run'.facts.listed hc') hy stored' ?_
      ((Ty.mem_classIds_rename f _).2 hk)
    rw [← Declaration.resultType?_silent, eq, Declaration.resultType?_rename,
      Declaration.resultType?_silent, ht, Option.map_some]
  | further looks consulted found isClass hs hk ih =>
    have related := h.alike consulted
    rw [found] at related
    obtain ⟨a', found', pair⟩ := exists_of_rel_some related
    obtain ⟨data', isClass', supertypes⟩ := h.exists_isClass pair isClass
    refine .further (relation looks) ih found' isClass' ?_ ((Ty.mem_classIds_rename f _).2 hk)
    rw [supertypes]
    exact List.mem_map_of_mem hs

/-- Settled runs find counterparts for what counterparts ask for. -/
theorem accord :
    Accord (Counterpart store.next w.store w'.store) (w.SettledSearch id) (w'.SettledSearch id')
    origin origin' log log' w w' id f where
  toAligned := h.toAligned
  described := h.described
  described' := h.described'
  steady hc found before after := h.run.facts.findClass?_of_settled h.settled hc found before after
  steady' hc found before after :=
    h.run'.facts.findClass?_of_settled h.settled' hc found before after
  alike {a a' k} uses pair asks := by
    have above := above_of_uses .refl uses
    have consulted := consults_of_asks above asks
    have above' := h.above_of_counterpart above pair
    exact ⟨_, _, ⟨above, consulted, rfl⟩, ⟨above', h.consults_of_counterpart consulted, rfl⟩,
      h.alike consulted⟩

end Settlement

end ClassSymbols
