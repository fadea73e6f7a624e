import ClassSymbols.Proofs.Ascent.Steps

/-!
# Two ways to effective members

The effective members of the classes of a hierarchy can be computed on a store, from the supertypes
down to their subclasses, or be asked for in any order, with a table of results that are remembered.
Both ways lead to the same members of a class unless the stored declarations of members above it say
too little about overriding: without a table, that a declared member overrides another one may then
not be known, and a clash be found where there is none.

## Main statements

* `effectiveSynthesis_eq_of_climbed` — the results of both ways.
* `not_forall_reportAlike` — classes for which only one way finds a conflict.
-/

namespace ClassSymbols

open Relation

theorem Signature.rename_id (signature : Signature) : signature.rename id = signature := by
  have types : Ty.rename id = id := funext fun _ => Ty.Owned.rename_eq_self fun _ _ => rfl
  simp [rename, types]

/-- Declarations that are alike show the same signature. -/
theorem Store.Alike.signature?_eq {s t : Store} {x : DeclId} (h : s.Alike t x) :
    t.signature? x = s.signature? x := by
  unfold Alike at h
  unfold signature?
  generalize s.get? x = a, t.get? x = b at h
  cases h with
  | none => rfl
  | @some declaration _ twin =>
    refine (twin.signature Function.injective_id rfl).trans ?_
    exact (congrArg (Option.map · _) (funext Signature.rename_id)).trans Option.map_id'

/-- Without conflicts, the effective members of a class that can be relied on are stored alike. -/
theorem Alongside.alike_of_clean {store : Store} {options : SynthesisOptions} {last : Ascent}
    {done : List DeclId} {log : List Computation} {w : Workspace}
    (h : Alongside store options last done last log w) (ground : store.Ground) {c : Computation}
    (hc : c ∈ log) (clean : c.synthesis.conflicts = []) {x : DeclId}
    (hx : x ∈ c.synthesis.set.memberIds) : last.store.Alike w.store x := by
  obtain ⟨g, hg, has, path⟩ := h.history.exists_home (h.alternatives ground).fresh c hc x hx
  refine h.alike_of_has ground hg ?_ has
  rcases ReflTransGen.cases_head (h.above_of_path ground path) with same | ⟨a, step, path⟩
  · obtain rfl := (h.facts ground).owners c hc g hg same
    exact c.synthesis.pending_handed_of_clean clean
  · have reliable := ((h.owners c.owner).2 ⟨c, hc, rfl⟩).2
    exact h.settled_of_above ground h.toClimbed reliable hg (.head' step path)

/-- Let the members of all classes be listed and stored, and let the classes `order` be computed one
after the other, each after its supertypes. Then each listed class whose result can be relied on has
a result. Whatever was asked before, a query for the class succeeds unless its supertypes lead
through more classes than a resolution has room for. If it succeeds then it has the same conflicts
and the same set, up to the ids of fake overrides. Without conflicts, the members of each name have
the same origins and signatures.

In particular, a result can be relied on if the results above it have left no fake override to be
stored and either all that is declared above the class is recorded (`Ascent.Reliable.of_recorded`),
or nothing is and no clash is found in the class and above it (`Ascent.Reliable.of_unrecorded`). -/
theorem effectiveSynthesis_eq_of_climbed {store : Store} (sound : store.Sound)
    (indexed : store.Indexed) (eager : store.Eager) (registered : store.Registered)
    (enclosed : store.Enclosed) {options : SynthesisOptions} (natural : options.relation.Natural)
    {order : List DeclId} (bottomUp : store.BottomUp [] order) (queries : List ClassQuery)
    {id : DeclId} (listed : id ∈ order)
    (reliable : (Ascent.climbAll options { store } order).Reliable id) :
    let ascent := Ascent.climbAll options { store } order
    let w := (Workspace.initial store options).afterAll queries
    ∃ result, ascent.results.get? id = some result ∧
      ((∀ path, List.IsChain store.Parent (id :: path) →
        (id :: path).length ≤ Limits.ownershipDepth) →
        ∃ result' w', Gives (effectiveSynthesis id) w (.ok result') w') ∧
      ∀ result' w', Gives (effectiveSynthesis id) w (.ok result') w' →
        ∃ f : DeclId → DeclId, Function.Injective f ∧
          (∀ x, x.number < store.next.number → f x = x) ∧
          result'.conflicts = result.conflicts.map (Conflict.rename f) ∧
          result.set.Renames f result'.set ∧
          (result.conflicts = [] → w'.view result'.set =
            ((Workspace.initial ascent.store options).view result.set).map fun (name, group) =>
              (name, group.map fun (origin, signature) =>
                (origin, signature.map (Signature.rename f)))) := by
  intro ascent w
  obtain ⟨data, isClass⟩ := bottomUp.isClass id listed
  have positive : 0 < store.next.number := by
    obtain ⟨declaration, stored, -⟩ := isClass
    exact Nat.zero_lt_of_lt (sound.allocated stored)
  have ground : store.Ground := ⟨sound, indexed, eager, registered, enclosed, positive⟩
  obtain ⟨final, later⟩ := (Climbed.start sound eager).climbAll options bottomUp
  obtain ⟨log, v, alongside⟩ :=
    exists_alongside natural ground final (.start ground options later) bottomUp rfl
  have mem_iff {a : DeclId} : a ∈ order.reverse ++ [] ↔ a ∈ order := by simp
  obtain ⟨c, hc, rfl⟩ := (alongside.owners id).1 ⟨mem_iff.2 listed, reliable⟩
  refine ⟨c.synthesis.handed, alongside.results c hc, fun short => ?_, fun result' w' gives => ?_⟩
  · have acyclic := bottomUp.not_cyclic (by simp) c.owner listed
    exact (cyclic_or_resolved sound.toWellFormed indexed eager registered options queries
      c.owner).2.2
      ⟨data, isClass⟩ acyclic short
  -- The query continues a history of its own, which is compared with that of the ascent.
  have fresh : (Workspace.initial store options).Fresh := Workspace.fresh_initial sound options
  have begin : History False (.initial store options) [] (.initial store options) := .start
  obtain ⟨log₀, history₀⟩ := begin.exists_afterAll fresh queries
  obtain ⟨log', history', -, -, resolved⟩ := exists_history fresh history₀ gives
  obtain ⟨c', hc', owner, rfl⟩ := resolved result' rfl
  have alternatives : Alternatives store options log log' v w' :=
    ⟨sound, indexed, eager, enclosed, positive, alongside.history, history'.relax True,
      alongside.unread, history'.still fresh eager.complete⟩
  let Above (a : DeclId) : Prop := a ∈ order ∧ ascent.Reliable a
  have upward {a b : DeclId} (above : Above a) (step : store.Parent a b) : Above b := by
    refine ⟨(bottomUp.parent_mem a above.1 b step).resolve_left (by simp),
      above.2.above (.single ?_)⟩
    rwa [final.parent_eq sound]
  obtain ⟨f, injective, fixed, comparison⟩ := alternatives.exists_comparison natural upward
    fun hd above step x hx unknown =>
      alongside.overridden_eq_nil ground final above.2 hd (.single step) hx unknown
  have pair : store.Old c.owner c'.owner := by
    obtain ⟨declaration, stored, -⟩ := isClass
    exact ⟨owner.symm, sound.allocated stored⟩
  have above : Above c.owner := ⟨listed, reliable⟩
  have renames := comparison.renames alongside.history (List.Subset.refl _) c hc above c' hc' pair
  refine ⟨f, injective, fixed, ?_, ?_, fun clean => ?_⟩
  · rw [OverrideSynthesis.conflicts_handed]
    exact renames.conflicts
  · rw [OverrideSynthesis.set_handed]
    exact renames.set
  · rw [OverrideSynthesis.conflicts_handed] at clean
    rw [OverrideSynthesis.set_handed]
    refine Workspace.view_eq (w := .initial ascent.store options) renames.set fun x hx => ?_
    have same := (alongside.alike_of_clean ground hc clean hx).signature?_eq
    exact (comparison.signature?_eq hc hc' above pair hx).trans (by rw [same]; rfl)

/-- The classes `A`, `B` and `C`, which extend `A`, and `D`, which extends `B` and `C`. Both `A` and
`B` have a function `f`. The declaration of the latter does not say that it overrides the former. -/
def diamond : List Declaration :=
  [.plainClass ⟨1⟩ "A" [] [⟨5⟩], .plainClass ⟨2⟩ "B" ["A"] [⟨6⟩], .plainClass ⟨3⟩ "C" ["A"] [],
    .plainClass ⟨4⟩ "D" ["B", "C"] [], .plainFunction ⟨5⟩ ⟨1⟩ .nullableAny,
    .plainFunction ⟨6⟩ ⟨2⟩ .nullableAny]

/-- A function `f` that is known to override others. -/
def Declaration.overriding (id owner : DeclId) (returnType : Ty) (overridden : List DeclId) :
    Declaration :=
  { plainFunction id owner returnType with kind := .function { returnType, overridden } }

/-- The diamond with a class `E`, which extends `B` and has a function `f` that is known to override
that of `B`, and a class `F`, which extends `B` and `E`. -/
def tower : List Declaration :=
  diamond ++ [.plainClass ⟨7⟩ "E" ["B"] [⟨9⟩], .plainClass ⟨8⟩ "F" ["B", "E"] [],
    .overriding ⟨9⟩ ⟨7⟩ .nullableAny [⟨6⟩]]

/-- The result of `F` can be relied on, though `D` has a clash that is none. -/
theorem effectiveSynthesis_eq_of_climbed_tower :
    let store := Store.empty.receive ⟨10⟩ tower
    let ascent := Ascent.climbAll {} { store } [⟨1⟩, ⟨2⟩, ⟨3⟩, ⟨4⟩, ⟨7⟩, ⟨8⟩]
    (∃ result, ascent.results.get? ⟨4⟩ = some result ∧ result.conflicts ≠ []) ∧
      ∃ result, ascent.results.get? ⟨8⟩ = some result ∧
        result.set.members.map (·.origin) = [.bridge] ∧
        ∃ result' w',
          Gives (effectiveSynthesis ⟨8⟩) ((Workspace.initial store {}).afterAll [.synthesis ⟨4⟩])
          (.ok result') w' ∧ result'.conflicts = [] ∧ ∃ f, result.set.Renames f result'.set := by
  intro store ascent
  have ground : store.Ground := Store.ground_receive_empty (by decide +kernel)
  have bottomUp : store.BottomUp [] [⟨1⟩, ⟨2⟩, ⟨3⟩, ⟨4⟩, ⟨7⟩, ⟨8⟩] := by decide +kernel
  let above : List DeclId := [⟨1⟩, ⟨2⟩, ⟨7⟩, ⟨8⟩]
  have computed : (∀ a ∈ above, ∀ b ∈ ascent.store.parents a, b ∈ above) ∧
      (∀ a ∈ above, ∀ result ∈ ascent.results.get? a,
        result.pending.isEmpty ∧ result.conflicts.isEmpty) ∧
      (∀ a ∈ above, ∀ members ∈ ascent.store.members? a,
        ∀ x ∈ members, x ∈ [(⟨5⟩ : DeclId), ⟨6⟩, ⟨9⟩]) ∧
      ascent.store.overridden ⟨5⟩ = [] ∧ ascent.store.overridden ⟨6⟩ = [] ∧
        ascent.store.overridden ⟨9⟩ = [⟨6⟩] ∧
      ascent.Recorded ⟨9⟩ ∧
      (ascent.results.get? ⟨4⟩).any (!·.conflicts.isEmpty) ∧
      (ascent.results.get? ⟨8⟩).map
        (fun result => (result.set.members.map (·.origin), result.conflicts)) =
        some ([.bridge], []) := by decide +kernel
  obtain ⟨closed, clean, declared, five, six, nine, recorded, clash, found⟩ := computed
  have traced : ∀ x ∈ [(⟨5⟩ : DeclId), ⟨6⟩, ⟨9⟩], ascent.Traced x := by
    have base : ascent.Traced ⟨6⟩ := .of_unrecorded six
    simp only [List.forall_mem_cons, List.not_mem_nil, false_implies, implies_true, and_true]
    exact ⟨.of_unrecorded five, base, base.of_recorded recorded nine⟩
  have reliable : ascent.Reliable ⟨8⟩ := .of_clean
    (fun a ha b step => closed a ha b (Store.mem_parents_iff.2 step))
    (fun a ha result known => (clean a ha result known).imp List.isEmpty_iff.1 List.isEmpty_iff.1)
    (fun a ha members known x hx => traced x (declared a ha members known x hx))
    (by decide : _ ∈ above)
  have listed : (⟨8⟩ : DeclId) ∈ [(⟨1⟩ : DeclId), ⟨2⟩, ⟨3⟩, ⟨4⟩, ⟨7⟩, ⟨8⟩] := by decide
  obtain ⟨result, known, succeeds, agrees⟩ :=
    effectiveSynthesis_eq_of_climbed ground.sound ground.indexed ground.eager ground.registered
      ground.enclosed (RelationKind.natural default) bottomUp [.synthesis ⟨4⟩] listed reliable
  have short (path : List DeclId) (chain : List.IsChain store.Parent (⟨8⟩ :: path)) :
      (⟨8⟩ :: path : List DeclId).length ≤ Limits.ownershipDepth :=
    Nat.le_trans (bottomUp.length_le_of_isChain (n := 0) (by simp) ⟨8⟩ listed path chain)
      (by decide)
  obtain ⟨result', w', gives⟩ := succeeds short
  obtain ⟨f, -, -, conflicts, renames, -⟩ := agrees result' w' gives
  rw [known, Option.map_some, Option.some.injEq, Prod.mk.injEq] at found
  obtain ⟨split, known', conflicting⟩ := (Option.any_eq_true _ _).1 clash
  refine ⟨⟨split, known', by simpa using conflicting⟩, result, known, found.1, result', w', gives,
    ?_, f, renames⟩
  rw [conflicts, found.2, List.map_nil]

/-! ## Where the two ways part -/

/-- Whether both ways report conflicts of a class, or neither does. -/
def ReportAlike (options : SynthesisOptions) (store : Store) (order : List DeclId)
    (id : DeclId) : Prop :=
  (∃ result, (Ascent.climbAll options { store } order).results.get? id = some result ∧
      result.hasConflicts = true) ↔
    ∃ result w', Gives (effectiveSynthesis id) (.initial store options) (.ok result) w' ∧
      result.hasConflicts = true

instance (options : SynthesisOptions) (store : Store) (order : List DeclId) (id : DeclId) :
    Decidable (ReportAlike options store order id) :=
  let asked : Bool := match effectiveSynthesis id (.initial store options) with
    | .ok result _ => result.hasConflicts
    | .error _ _ => false
  have asked_iff : asked = true ↔
      ∃ result w', Gives (effectiveSynthesis id) (.initial store options) (.ok result) w' ∧
        result.hasConflicts = true := by
    simp only [asked, gives_ok_iff]
    cases effectiveSynthesis id (.initial store options) <;> simp
  decidable_of_iff
    (((Ascent.climbAll options { store } order).results.get? id).any (·.hasConflicts) = true ↔
      asked = true)
    (iff_congr (Option.any_eq_true _ _) asked_iff)

/-- Whether the two ways part at a class of a hierarchy that is listed bottom-up. -/
structure WaysPart (options : SynthesisOptions) (next : DeclId) (declarations : List Declaration)
    (order : List DeclId) (id : DeclId) : Prop where
  ground : (Store.empty.receive next declarations).Ground
  bottomUp : (Store.empty.receive next declarations).BottomUp [] order
  listed : id ∈ order
  apart : ¬ReportAlike options (Store.empty.receive next declarations) order id

/-- Functions of two classes that are known to override what they inherit, and one function between
them that is not. `E` extends the class `D`, which inherits from all three. -/
def halfRecorded : List Declaration :=
  [.plainClass ⟨1⟩ "Z" [] [⟨7⟩], .plainClass ⟨2⟩ "A" ["Z"] [⟨8⟩], .plainClass ⟨3⟩ "C" ["A"] [⟨9⟩],
    .plainClass ⟨4⟩ "N" ["C", "Z"] [⟨10⟩], .plainClass ⟨5⟩ "D" ["A", "C", "N"] [],
    .plainClass ⟨6⟩ "E" ["D"] [⟨11⟩], .plainFunction ⟨7⟩ ⟨1⟩ .nullableAny,
    .overriding ⟨8⟩ ⟨2⟩ .nullableAny [⟨7⟩], .plainFunction ⟨9⟩ ⟨3⟩ .nullableAny,
    .overriding ⟨10⟩ ⟨4⟩ (.ofClass .any) [⟨9⟩, ⟨7⟩], .plainFunction ⟨11⟩ ⟨6⟩ .nullableAny]

/-- The class `B` overrides one function of `A` wrongly. The class `C`, which extends `B`, overrides
the other one wrongly. -/
def unfinished : List Declaration :=
  [.plainClass ⟨1⟩ "A" [] [⟨4⟩, ⟨5⟩], .plainClass ⟨2⟩ "B" ["A"] [⟨6⟩],
    .plainClass ⟨3⟩ "C" ["B"] [⟨7⟩], .plainFunction ⟨4⟩ ⟨1⟩ (.ofClass .any),
    { Declaration.plainFunction ⟨5⟩ ⟨1⟩ (.ofClass .any) with name := "g" },
    .plainFunction ⟨6⟩ ⟨2⟩ .nullableAny,
    { Declaration.plainFunction ⟨7⟩ ⟨3⟩ .nullableAny with name := "g" }]

/-- The classes `B` and `C` extend `A`, and `C` overrides its function. -/
def fork : List Declaration :=
  [.plainClass ⟨1⟩ "A" [] [⟨4⟩], .plainClass ⟨2⟩ "B" ["A"] [], .plainClass ⟨3⟩ "C" ["A"] [⟨5⟩],
    .plainFunction ⟨4⟩ ⟨1⟩ .nullableAny, .plainFunction ⟨5⟩ ⟨3⟩ .nullableAny]

/-- A relation by which types are below others as long as few ids have been given out. -/
def TypeRelation.early : TypeRelation where
  holds store _ _ := store.next.number ≤ 6

/-- The two ways part at `D` of the diamond: without a table, the function of `B` is not known to
override that of `A`, and a clash is found that is none. They part in three more cases: where
functions that are not known to override others are reached in several ways, even if no clash is
found; below a class with conflicts, whose fake overrides are not stored; and for a relation that
depends on what else has been stored. -/
theorem not_forall_reportAlike :
    WaysPart {} ⟨7⟩ diamond [⟨1⟩, ⟨2⟩, ⟨3⟩, ⟨4⟩] ⟨4⟩ ∧
      WaysPart {} ⟨12⟩ halfRecorded [⟨1⟩, ⟨2⟩, ⟨3⟩, ⟨4⟩, ⟨5⟩, ⟨6⟩] ⟨6⟩ ∧
      WaysPart {} ⟨8⟩ unfinished [⟨1⟩, ⟨2⟩, ⟨3⟩] ⟨3⟩ ∧
      WaysPart { relation := .early } ⟨6⟩ fork [⟨1⟩, ⟨2⟩, ⟨3⟩] ⟨3⟩ := by
  refine ⟨⟨Store.ground_receive_empty ?_, ?_, ?_, ?_⟩, ⟨Store.ground_receive_empty ?_, ?_, ?_, ?_⟩,
    ⟨Store.ground_receive_empty ?_, ?_, ?_, ?_⟩, ⟨Store.ground_receive_empty ?_, ?_, ?_, ?_⟩⟩ <;>
  decide +kernel

end ClassSymbols
