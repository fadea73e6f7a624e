import ClassSymbols.Proofs.Data.Related
import ClassSymbols.Proofs.Resolution.Homes

/-!
# Matching the ids of two runs

Two runs give different ids to what they read and to the fake overrides that they make. Let it be
said which of the declarations that were read belong together. Then the fake overrides of classes
that belong together match one by one, and one renaming takes all ids of the first run to those of
the second run.

## Main definitions

* `Run` — a history that starts without results.
* `Pairs` — whether a relation pairs declarations of two runs.
* `Matched` — whether two ids are paired, or are those of one fake override.

## Main statements

* `Pairs.exists_renaming` — the renaming between two runs.
-/

namespace ClassSymbols

/-- A history that starts without results. -/
structure Run (origin : Workspace) (log : List Computation) (w : Workspace) : Prop where
  fresh : origin.Fresh
  history : History True origin log w

theorem Run.facts {origin w : Workspace} {log : List Computation} (run : Run origin log w) :
    History.Facts True origin log w := run.history.facts run.fresh

/-- Whether a relation pairs declarations of two runs: each is in at most one pair, and fake
overrides are in none. -/
structure Pairs (R : DeclId → DeclId → Prop) (log log' : List Computation) (w' : Workspace) :
    Prop where
  biUnique : Relator.BiUnique R
  below : ∀ {x y}, R x y → y.number < w'.store.next.number
  apart : ∀ {c}, c ∈ log → ∀ fake ∈ c.synthesis.pending, ∀ y, ¬R fake.id y
  apart' : ∀ {c}, c ∈ log' → ∀ fake ∈ c.synthesis.pending, ∀ x, ¬R x fake.id

/-- Whether two ids are those of one declaration in two runs: a pair, or the fake overrides at one
position of the results of a pair of classes. -/
inductive Matched (R : DeclId → DeclId → Prop) (log log' : List Computation) :
    DeclId → DeclId → Prop
  | pair {x y : DeclId} : R x y → Matched R log log' x y
  | fake {c c' : Computation} {i : Nat} {fake fake' : Declaration} :
    c ∈ log → c' ∈ log' → R c.owner c'.owner →
      c.synthesis.pending[i]? = some fake → c'.synthesis.pending[i]? = some fake' →
      Matched R log log' fake.id fake'.id

namespace Matched

variable {R : DeclId → DeclId → Prop} {origin origin' w w' : Workspace}
  {log log' : List Computation} {x y z : DeclId} (run : Run origin log w)
  (run' : Run origin' log' w')

theorem swap (h : Matched R log log' x y) : Matched (Function.swap R) log' log y x := by
  cases h with
  | pair h => exact .pair h
  | fake hc hc' pair at_i at_i' => exact .fake hc' hc pair at_i' at_i

include run run'

/-- A declaration matches at most one. -/
theorem rightUnique (unique : Relator.RightUnique R)
    (apart : ∀ {c}, c ∈ log → ∀ fake ∈ c.synthesis.pending, ∀ y, ¬R fake.id y)
    (h : Matched R log log' x y) (h' : Matched R log log' x z) : y = z := by
  cases h with
  | pair h =>
    cases h' with
    | pair h' => exact unique h h'
    | fake hc _ _ at_i _ => exact absurd h (apart hc _ (List.mem_of_getElem? at_i) _)
  | @fake c c' i fake fake' hc hc' pair at_i at_i' =>
    generalize same : fake.id = z at h'
    cases h' with
    | pair h' => exact absurd (same ▸ h') (apart hc _ (List.mem_of_getElem? at_i) _)
    | @fake d d' j other other' hd hd' pair' at_j at_j' =>
      obtain rfl := run.facts.eq_of_pending run.fresh hc hd (List.mem_of_getElem? at_i)
        (List.mem_of_getElem? at_j) same
      obtain rfl := run'.facts.owners c' hc' d' hd' (unique pair pair')
      -- The fake overrides of one result have different ids.
      obtain ⟨sound, _, _, follows, -⟩ := run.facts.follows c hc
      have at_i_id : (c.synthesis.pending.map (·.id))[i]? = some fake.id := by simp [at_i]
      have at_j_id : (c.synthesis.pending.map (·.id))[j]? = some fake.id := by simp [at_j, same]
      obtain ⟨below, -⟩ := List.getElem?_eq_some_iff.1 at_i_id
      obtain rfl :=
        (List.getElem?_inj below (follows.batch sound).nodup).1 (at_i_id.trans at_j_id.symm)
      rw [Option.some.inj (at_i'.symm.trans at_j')]

omit run in
theorem lt_next (pairs : Pairs R log log' w') (h : Matched R log log' x y) :
    y.number < w'.store.next.number := by
  cases h with
  | pair h => exact pairs.below h
  | fake _ hc' _ _ at_i' => exact (run'.facts.bounds hc' (List.mem_of_getElem? at_i')).2

end Matched

/-- One renaming takes all ids of a run to those of another run. -/
theorem Pairs.exists_renaming {R : DeclId → DeclId → Prop} {origin origin' w w' : Workspace}
    {log log' : List Computation} (pairs : Pairs R log log' w') (run : Run origin log w)
    (run' : Run origin' log' w') :
    ∃ f : DeclId → DeclId, Function.Injective f ∧ ∀ {x y}, Matched R log log' x y → f x = y := by
  have unique : Relator.BiUnique fun a b => Matched R log log' ⟨a⟩ ⟨b⟩ := by
    constructor
    · intro a b c h h'
      have same := h.swap.rightUnique run' run pairs.biUnique.1.flip pairs.apart' h'.swap
      exact congrArg DeclId.number same
    · intro a b c h h'
      exact congrArg DeclId.number (h.rightUnique run run' pairs.biUnique.2 pairs.apart h')
  obtain ⟨g, injective, related⟩ :=
    exists_injective_of_biUnique unique fun h => h.lt_next run' pairs
  refine ⟨fun x => ⟨g x.number⟩, fun x y same => ?_, fun {x y} h => ?_⟩
  · exact congrArg DeclId.mk (injective (DeclId.mk.inj same))
  · exact congrArg DeclId.mk (related h)

end ClassSymbols
