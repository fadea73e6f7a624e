import ClassSymbols.Proofs.Ascent.Enclosed
import ClassSymbols.Proofs.Resolution.Agreement
import ClassSymbols.Proofs.Resolution.Answers

/-!
# The order of questions

Let the members of all classes be listed from the start. Then the classes are always found alike,
and it does not matter for the result of a class what was asked before, or in which order, up to the
ids of fake overrides: of the classes above it, at most those results count that say what declared
members override.

## Main definitions

* `Store.Old` — declarations that two histories have in common.
* `Alternatives` — two histories of questions about one store.

## Main statements

* `Alternatives.exists_comparison` — the two histories compare classes alike.
-/

namespace ClassSymbols

open Relation

variable {store : Store} {options : SynthesisOptions} {origin w w' : Workspace}
  {log log' : List Computation}

/-! ## Histories of questions -/

/-- A history without single declarations is one with them. -/
theorem History.relax (h : History False origin log w) (loads : Prop) :
    History loads origin log w := by
  induction h with
  | start => exact .start
  | read _ asked ih => exact ih.read asked
  | load contra => exact contra.elim
  | compute _ follows ih => exact ih.compute follows

/-- Questions continue a history. -/
theorem History.exists_afterAll {loads : Prop} (fresh : origin.Fresh)
    (history : History loads origin log w) (queries : List ClassQuery) :
    ∃ log', History loads origin log' (w.afterAll queries) := by
  induction queries generalizing log w with
  | nil => exact ⟨log, history⟩
  | cons query rest ih =>
    obtain ⟨r, gives⟩ := w.exists_gives_after query.ask
    rcases query.gives_ask_cases gives with ⟨r', store, reads, same⟩ | ⟨r', resolved⟩
    · have next := history.read reads
      rw [← same] at next
      exact ih next
    · obtain ⟨log', next, -⟩ := exists_history fresh history resolved
      exact ih next

section Facts

variable {loads : Prop} (facts : History.Facts loads origin log w)
  (still : origin.store.Still w.store)
include facts still

/-- The class of a result is stored from the start, with its supertypes. -/
theorem History.Facts.exists_isClass_origin {c : Computation} (hc : c ∈ log) :
    ∃ data, origin.store.IsClass c.owner data ∧ data.supertypes = c.supertypes := by
  obtain ⟨data, isClass, supertypes⟩ := facts.exists_isClass hc
  obtain ⟨old, stored⟩ := still.classes isClass
  obtain ⟨data', isClass', same⟩ := facts.later.store.isClass stored
  obtain rfl := isClass.unique isClass'
  exact ⟨old, stored, (ClassData.supertypes_eq same).symm.trans supertypes⟩

variable (fresh : origin.Fresh)
include fresh

/-- What a result was computed from was found for a supertype. -/
theorem History.Facts.found_of_mem {c : Computation} (hc : c ∈ log) {m : SupertypeMembers}
    (hm : m ∈ c.members) :
    m.supertype ∈ c.supertypes ∧
    m.supertype.classId?.bind origin.store.findClass? = some m.owner := by
  have listed : (m.supertype, m.owner) ∈ c.members.map fun m => (m.supertype, m.owner) :=
    List.mem_map_of_mem hm
  rw [facts.matched_eq hc fresh still, List.mem_filterMap] at listed
  obtain ⟨supertype, hs, found⟩ := listed
  obtain ⟨owner, found, e⟩ := Option.map_eq_some_iff.1 found
  obtain ⟨rfl, rfl⟩ := Prod.mk.inj e
  exact ⟨hs, found⟩

/-- A result was computed from those of direct supertypes. -/
theorem History.Facts.parent_of_offers {a b : DeclId} (offers : Offers log a b) :
    origin.store.Parent a b := by
  obtain ⟨c, hc, rfl, m, hm, rfl⟩ := offers
  obtain ⟨data, stored, supertypes⟩ := facts.exists_isClass_origin still hc
  obtain ⟨hs, found⟩ := facts.found_of_mem still fresh hc hm
  exact ⟨data, stored, m.supertype, supertypes ▸ hs, found⟩

end Facts

/-! ## Two histories -/

/-- Whether two ids are one that had been given out from the start. -/
def Store.Old (store : Store) (x y : DeclId) : Prop := x = y ∧ x.number < store.next.number

/-- Two histories of one store, in which classes and their members are listed from the start and no
further classes are read. -/
structure Alternatives (store : Store) (options : SynthesisOptions) (log log' : List Computation)
    (w w' : Workspace) :
    Prop where
  sound : store.Sound
  indexed : store.Indexed
  eager : store.Eager
  enclosed : store.Enclosed
  positive : 0 < store.next.number
  history : History True (.initial store options) log w
  history' : History True (.initial store options) log' w'
  still : store.Still w.store
  still' : store.Still w'.store

namespace Alternatives

variable (h : Alternatives store options log log' w w')
include h

theorem swap : Alternatives store options log' log w' w :=
  ⟨h.sound, h.indexed, h.eager, h.enclosed, h.positive, h.history', h.history, h.still', h.still⟩

theorem fresh : (Workspace.initial store options).Fresh := Workspace.fresh_initial h.sound options

theorem run : Run (.initial store options) log w := ⟨h.fresh, h.history⟩

theorem evolves : store.Evolves w.store := h.run.facts.later.store

/-- No fake override has been given out from the start. -/
theorem apart {c : Computation} (hc : c ∈ log) {fake : Declaration}
    (hf : fake ∈ c.synthesis.pending) :
    store.next.number ≤ fake.id.number := by
  obtain ⟨-, before, history, -⟩ := h.run.facts.follows c hc
  have grown := (history.facts h.fresh).later.store.next_le
  have := (h.run.facts.bounds hc hf).1
  exact Nat.le_trans grown this

theorem pairs : Pairs store.Old log log' w' where
  biUnique :=
    ⟨fun _ _ _ same same' => same.1.trans same'.1.symm,
      fun _ _ _ same same' => same.1.symm.trans same'.1⟩
  below := by
    rintro x _ ⟨rfl, below⟩
    have := h.swap.evolves.next_le
    omega
  apart hc fake hf y same := by
    have := h.apart hc hf
    have := same.2
    omega
  apart' hc fake hf x same := by
    obtain ⟨rfl, below⟩ := same
    have := h.swap.apart hc hf
    omega

/-- A class has the members and the supertypes that it has from the start. -/
theorem members?_eq {a : DeclId} {xs : List DeclId} (known : w.store.members? a = some xs) :
    store.members? a = some xs := by
  obtain ⟨data, isClass, -⟩ := Store.members?_eq_some_iff.1 known
  obtain ⟨old, stored⟩ := h.still.classes isClass
  obtain ⟨members, listed⟩ := h.eager.complete a old stored
  have listed := Store.members?_eq_some_iff.2 ⟨old, stored, listed⟩
  rw [listed, ← known, ← h.evolves.listed listed]

theorem findClass?_eq (v : Workspace) (before : (Workspace.initial store options).LeadsTo v)
    (after : v.LeadsTo w) (k : ClassId) : v.store.findClass? k = store.findClass? k :=
  h.still.findClass?_between before.store after.store h.sound.toWellFormed k

theorem supertypes_eq {c c' : Computation} (hc : c ∈ log) (hc' : c' ∈ log')
    (same : c'.owner = c.owner) :
    c'.supertypes = c.supertypes := by
  obtain ⟨data, stored, supertypes⟩ := h.run.facts.exists_isClass_origin h.still hc
  obtain ⟨data', stored', supertypes'⟩ := h.swap.run.facts.exists_isClass_origin h.swap.still hc'
  rw [← supertypes, ← supertypes', stored.unique (same ▸ stored')]

/-- Classes that are found have been given out from the start. -/
theorem lt_next_of_found {k : ClassId} {a : DeclId} (found : store.findClass? k = some a) :
    a.number < store.next.number := by
  obtain ⟨data, declaration, stored, -⟩ := h.indexed k a found
  exact h.sound.allocated stored

/-- What stored declarations say about overriding is what they say from the start. -/
theorem overridden_eq {x : DeclId} (below : x.number < store.next.number) :
    w.store.overridden x = store.overridden x := by
  cases old : store.get? x with
  | some declaration => exact h.evolves.toExtends.overridden_eq ⟨declaration, old⟩
  | none =>
    have missing : w.store.get? x = none := by
      by_contra stored
      obtain ⟨d, stored⟩ := Option.ne_none_iff_exists'.1 stored
      rcases h.evolves.fresh stored with ⟨d', earlier⟩ | later
      · simp [old] at earlier
      · omega
    simp [Store.overridden, old, missing]

section Renaming

variable {f : DeclId → DeclId} (injective : Function.Injective f)
  (takes : ∀ {x y}, Matched store.Old log log' x y → f x = y)
include takes

omit h in
theorem fixed (x : DeclId) (below : x.number < store.next.number) : f x = x :=
  takes (.pair ⟨rfl, below⟩)

include injective

/-- What has been given out from the start is aligned with itself. -/
theorem aligned :
    Aligned store.Old (.initial store options) (.initial store options) log log' w w' f where
  run := h.run
  run' := h.swap.run
  options := h.swap.run.facts.later.options.trans h.run.facts.later.options.symm
  injective := injective
  fixed := fixed takes _ h.positive
  takes := takes
  twin := by
    rintro x _ ⟨rfl, below⟩
    exact h.enclosed.twin h.sound h.eager (fixed takes) h.evolves h.swap.evolves below
  listed := by
    rintro a _ xs ys ⟨rfl, -⟩ known known'
    have listed := h.members?_eq known
    obtain rfl := Option.some.inj (listed.symm.trans (h.swap.members?_eq known'))
    exact List.forall₂_same.2 fun x hx => ⟨rfl, h.sound.listed_allocated listed x hx⟩

omit injective in
/-- The classes that a class was computed from are the same. -/
theorem members_related {c c' : Computation} (hc : c ∈ log) (hc' : c' ∈ log')
    (same : c'.owner = c.owner) :
    List.Forall₂ (fun m m' : SupertypeMembers =>
      m'.supertype = m.supertype.rename f ∧ store.Old m.owner m'.owner)
      c.members c'.members := by
  have matched := h.run.facts.matched_eq hc h.fresh h.still
  have matched' := h.swap.run.facts.matched_eq hc' h.fresh h.swap.still
  rw [h.supertypes_eq hc hc' same, ← matched, ← List.forall₂_eq_eq_eq, List.forall₂_map_left_iff,
    List.forall₂_map_right_iff] at matched'
  have listed := (List.forall₂_and_left _ _).2 ⟨fun _ hm => hm, matched'.flip⟩
  refine listed.imp fun m m' ⟨hm, e⟩ => ?_
  obtain ⟨supertype, owner⟩ := Prod.mk.inj e
  rw [supertype, owner]
  obtain ⟨data, ⟨declaration, stored, hd⟩, supertypes⟩ :=
    h.run.facts.exists_isClass_origin h.still hc
  obtain ⟨hs, found⟩ := h.run.facts.found_of_mem h.still h.fresh hc hm
  obtain ⟨k, -, found⟩ := Option.bind_eq_some_iff.1 found
  refine ⟨?_, rfl, h.lt_next_of_found found⟩
  have inside : m.supertype ∈ declaration.types :=
    declaration.mem_types_of_supertype hd (supertypes ▸ hs)
  exact (((h.enclosed _ _ stored).types _ inside).mono (fixed takes)).rename_eq_self.symm

/-- The stores find the same classes. -/
theorem findsTwins {c c' : Computation} (hc : c ∈ log) (hc' : c' ∈ log') :
    FindsTwins f c.before.store c'.before.store fun _ => True where
  injective := injective
  any := trivial
  found {k} _ := by
    obtain ⟨-, before, history, -, -⟩ := h.run.facts.follows c hc
    obtain ⟨-, before', history', -, -⟩ := h.swap.run.facts.follows c' hc'
    have start := (history.facts h.fresh).later
    have start' := (history'.facts h.fresh).later
    obtain ⟨step, later⟩ := h.run.facts.finished c hc
    obtain ⟨step', later'⟩ := h.swap.run.facts.finished c' hc'
    rw [h.findClass?_eq c.before start (step.trans later),
      h.swap.findClass?_eq c'.before start' (step'.trans later')]
    cases found : store.findClass? k with
    | none => exact .none
    | some a =>
      have below := h.lt_next_of_found found
      refine .some ⟨(fixed takes a below).symm, ?_⟩
      exact h.enclosed.twin h.sound h.eager (fixed takes) start.store start'.store below
  closed _ _ _ _ _ _ _ := trivial

/-- Classes compare alike, if results of supertypes say as much about declared members as stored
declarations do. -/
theorem comparison (natural : options.relation.Natural) {Above : DeclId → Prop}
    (upward : ∀ {a b}, Above a → store.Parent a b → Above b)
    (silent : ∀ {b c}, c ∈ log → Above b → store.Parent b c.owner →
      ∀ x ∈ c.declared, c.synthesis.set.overridden.get? x = none → store.overridden x = []) :
    Comparison store.Old Above (fun _ _ => True) (.initial store options)
      (.initial store options) log log' w w' f where
  toAligned := h.aligned injective takes
  upward above offers := upward above (h.run.facts.parent_of_offers h.still h.fresh offers)
  found hc hc' _ same := h.members_related takes hc hc' same.1.symm
  silent hc _ above offers _ x hx unknown := by
    have nothing :=
      silent hc above (h.run.facts.parent_of_offers h.still h.fresh offers) x hx unknown
    have below := h.sound.listed_allocated (h.members?_eq (h.run.facts.listed hc)) x hx
    rw [fixed takes x below, h.overridden_eq below, h.swap.overridden_eq below]
    exact ⟨nothing, nothing⟩
  natural := h.run.facts.later.options ▸ natural
  grasps _ _ _ :=
    { any := trivial
      supertypes := fun _ _ _ _ _ _ => trivial
      results := fun _ _ _ _ _ _ _ _ _ _ => trivial }
  finds _ _ _ hc hc' _ _ := h.findsTwins injective takes hc hc'

end Renaming

/-- The two histories compare classes alike, for one renaming that leaves alone what has been given
out from the start. -/
theorem exists_comparison (natural : options.relation.Natural) {Above : DeclId → Prop}
    (upward : ∀ {a b}, Above a → store.Parent a b → Above b)
    (silent : ∀ {b c}, c ∈ log → Above b → store.Parent b c.owner →
      ∀ x ∈ c.declared, c.synthesis.set.overridden.get? x = none → store.overridden x = []) :
    ∃ f : DeclId → DeclId, Function.Injective f ∧ (∀ x, x.number < store.next.number → f x = x) ∧
      Comparison store.Old Above (fun _ _ => True) (.initial store options)
        (.initial store options) log log' w w' f := by
  obtain ⟨f, injective, takes⟩ := h.pairs.exists_renaming h.run h.swap.run
  exact ⟨f, injective, fixed takes, h.comparison injective takes natural upward silent⟩

end Alternatives

end ClassSymbols
