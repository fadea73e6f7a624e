import ClassSymbols.Proofs.Scope.Towers

/-!
# Depths of type parameters

A scope is built by pushing lists of parameters. The lists that are not empty are its frames, the
innermost first, and a lookup by number finds the first match in the first frame that has one. With
it comes the number of frames that were passed over, as a 16-bit number: it says how many they are
as long as they are fewer than 2 ^ 16, and wraps around from there on.

## Main definitions

* `ParameterScope.ofPushed` — the scope that lists of parameters make.
* `ParameterScope.FirstAt` — where the first parameter with a number is.

## Main statements

* `ParameterScope.findFrom_eq_some_iff` — what a search through frames finds.
* `ParameterScope.findWithDepth?_exact` — what a lookup in a scope finds, and how many parameters
  are in scope.
* `ParameterScope.not_forall_depth` — a parameter behind 2 ^ 16 frames is reported as one of the
  innermost frame.
-/

namespace ClassSymbols

namespace ParameterScope

/-- The scope that lists of parameters make when they are pushed one after the other. -/
def ofPushed (pushed : List (List TypeParameter)) : ParameterScope := pushed.foldl push .empty

def framesOf (pushed : List (List TypeParameter)) : List (List TypeParameter) :=
  (pushed.filter fun parameters => !parameters.isEmpty).reverse

/-- Whether `parameter` is the first one with number `id` in the frame at a position, and no frame
before has one. -/
structure FirstAt (frames : List (List TypeParameter)) (id : UInt32) (position : Nat)
    (parameter : TypeParameter) :
    Prop where
  own : parameter.id = id
  first : ∃ before after, frames[position]? = some (before ++ parameter :: after) ∧
    ∀ other ∈ before, other.id ≠ id
  passed : ∀ frame ∈ frames.take position, ∀ other ∈ frame, other.id ≠ id

/-! ## Frames -/

theorem frames_push (scope : ParameterScope) (parameters : List TypeParameter) :
    (scope.push parameters).frames = framesOf [parameters] ++ scope.frames := by
  unfold push
  split
  · next none => simp [none, framesOf]
  · next some => simp [some, framesOf]

theorem framesOf_cons (parameters : List TypeParameter) (pushed : List (List TypeParameter)) :
    framesOf (parameters :: pushed) = framesOf pushed ++ framesOf [parameters] := by
  rw [framesOf, ← List.singleton_append, List.filter_append, List.reverse_append]
  rfl

theorem frames_ofPushed (pushed : List (List TypeParameter)) :
    (ofPushed pushed).frames = framesOf pushed := by
  have onto (scope : ParameterScope) :
      (pushed.foldl push scope).frames = framesOf pushed ++ scope.frames := by
    induction pushed generalizing scope with
    | nil => rfl
    | cons parameters pushed ih =>
      rw [List.foldl_cons, ih, frames_push, framesOf_cons parameters pushed, List.append_assoc]
  exact (onto .empty).trans (List.append_nil _)

theorem length_flatten_framesOf (pushed : List (List TypeParameter)) :
    (framesOf pushed).flatten.length = pushed.flatten.length := by
  induction pushed with
  | nil => rfl
  | cons parameters pushed ih =>
    rw [framesOf_cons, List.flatten_append, List.length_append, ih, List.flatten_cons,
      List.length_append, Nat.add_comm]
    cases parameters <;> simp [framesOf]

/-! ## Searches -/

section Searches

variable {id : UInt32} {frame : List TypeParameter} {frames : List (List TypeParameter)}
  {parameter : TypeParameter}

theorem firstAt_zero_iff :
    FirstAt (frame :: frames) id 0 parameter ↔ frame.find? (·.id == id) = some parameter := by
  rw [List.find?_eq_some_iff_append]
  constructor
  · rintro ⟨own, ⟨before, after, here, apart⟩, -⟩
    exact ⟨by simpa using own, before, after, Option.some.inj here, by simpa using apart⟩
  · rintro ⟨own, before, after, rfl, apart⟩
    exact ⟨by simpa using own, ⟨before, after, rfl, by simpa using apart⟩, by simp⟩

theorem firstAt_succ_iff {n : Nat} : FirstAt (frame :: frames) id (n + 1) parameter ↔
    frame.find? (·.id == id) = none ∧ FirstAt frames id n parameter := by
  rw [List.find?_eq_none]
  constructor
  · rintro ⟨own, first, passed⟩
    obtain ⟨here, later⟩ := List.forall_mem_cons.1 passed
    exact ⟨by simpa using here, own, first, later⟩
  · rintro ⟨here, own, first, later⟩
    exact ⟨own, first, List.forall_mem_cons.2 ⟨by simpa using here, later⟩⟩

/-- A search through frames finds the first parameter with a number, and counts the frames before
its own. -/
theorem findFrom_eq_some_iff {start count : Nat} :
    findFrom id start frames = some (parameter, count) ↔
    ∃ n, FirstAt frames id n parameter ∧ count = start + n := by
  induction frames generalizing start with
  | nil =>
    constructor
    · exact fun none => nomatch none
    · rintro ⟨n, ⟨-, ⟨_, _, here, -⟩, -⟩, -⟩
      simp at here
  | cons frame rest ih =>
    rw [findFrom]
    cases found : frame.find? (·.id == id) with
    | some other =>
      constructor
      · intro same
        obtain ⟨rfl, rfl⟩ := Prod.mk.inj (Option.some.inj same)
        exact ⟨0, firstAt_zero_iff.2 found, rfl⟩
      · rintro ⟨_ | n, first, rfl⟩
        · rw [Option.some.inj (found.symm.trans (firstAt_zero_iff.1 first)), Nat.add_zero]
        · cases found.symm.trans (firstAt_succ_iff.1 first).1
    | none =>
      rw [ih]
      constructor
      · rintro ⟨n, first, rfl⟩
        exact ⟨n + 1, firstAt_succ_iff.2 ⟨found, first⟩, by omega⟩
      · rintro ⟨_ | n, first, rfl⟩
        · cases found.symm.trans (firstAt_zero_iff.1 first)
        · exact ⟨n, (firstAt_succ_iff.1 first).2, by omega⟩

theorem FirstAt.position_lt {n : Nat} (first : FirstAt frames id n parameter) : n < frames.length :=
  have ⟨_, _, here, _⟩ := first.first
  (List.getElem?_eq_some_iff.1 here).1

/-- The position of the first parameter with a number is determined. -/
theorem FirstAt.position_eq {m n : Nat} {other : TypeParameter}
    (one : FirstAt frames id m parameter) (two : FirstAt frames id n other) : m = n := by
  have found := findFrom_eq_some_iff.2 ⟨m, one, (Nat.zero_add m).symm⟩
  exact (Prod.mk.inj (Option.some.inj (found.symm.trans
    (findFrom_eq_some_iff.2 ⟨n, two, (Nat.zero_add n).symm⟩)))).2

theorem findWithDepth?_eq_some_iff {scope : ParameterScope} {depth : UInt16} :
    scope.findWithDepth? id = some (parameter, depth) ↔
      ∃ passed, FirstAt scope.frames id passed parameter ∧ depth.toNat = passed % UInt16.size := by
  have wraps (n : Nat) : UInt16.ofNat n = depth ↔ depth.toNat = n % UInt16.size := by
    rw [← UInt16.toNat_inj, UInt16.toNat_ofNat', eq_comm]
  rw [findWithDepth?, Option.map_eq_some_iff]
  constructor
  · rintro ⟨⟨_, count⟩, found, same⟩
    obtain ⟨rfl, counted⟩ := Prod.mk.inj same
    obtain ⟨passed, first, rfl⟩ := findFrom_eq_some_iff.1 found
    exact ⟨passed, first, Nat.zero_add passed ▸ (wraps _).1 counted⟩
  · rintro ⟨passed, first, counted⟩
    have found := findFrom_eq_some_iff.2 ⟨passed, first, (Nat.zero_add passed).symm⟩
    exact ⟨(parameter, passed), found, congrArg (parameter, ·) ((wraps passed).2 counted)⟩

theorem find?_eq_some_iff {scope : ParameterScope} :
    scope.find? id = some parameter ↔ ∃ passed, FirstAt scope.frames id passed parameter := by
  simp only [find?, Option.map_eq_some_iff, Prod.exists, exists_and_right, exists_eq_right,
    findWithDepth?_eq_some_iff]
  constructor
  · rintro ⟨_, passed, first, -⟩
    exact ⟨passed, first⟩
  · rintro ⟨passed, first⟩
    exact ⟨UInt16.ofNat passed, passed, first, UInt16.toNat_ofNat'⟩

end Searches

/-- Let lists of parameters be pushed, and consider those that are not empty, from the last one on.
A lookup by number finds the first parameter with that number in the first list that has one, and
nothing if there is none. With it, the lookup reports how many lists were passed over, up to
multiples of 2 ^ 16, so exactly unless there are more lists than that. As many parameters are in
scope as were pushed. -/
theorem findWithDepth?_exact (pushed : List (List TypeParameter)) (id : UInt32) :
    let scope := ofPushed pushed
    (∀ parameter depth, scope.findWithDepth? id = some (parameter, depth) ↔
      ∃ passed, FirstAt (framesOf pushed) id passed parameter ∧
        depth.toNat = passed % UInt16.size) ∧
    ((framesOf pushed).length ≤ UInt16.size →
      ∀ parameter depth, scope.findWithDepth? id = some (parameter, depth) ↔
      FirstAt (framesOf pushed) id depth.toNat parameter) ∧
    (∀ parameter, scope.find? id = some parameter ↔
      ∃ passed, FirstAt (framesOf pushed) id passed parameter) ∧
    scope.size = pushed.flatten.length ∧ (scope.isEmpty = true ↔ scope.size = 0) := by
  intro scope
  have frames : scope.frames = framesOf pushed := frames_ofPushed pushed
  have depths (parameter : TypeParameter) (depth : UInt16) :
      scope.findWithDepth? id = some (parameter, depth) ↔
        ∃ passed, FirstAt (framesOf pushed) id passed parameter ∧
          depth.toNat = passed % UInt16.size :=
    frames ▸ findWithDepth?_eq_some_iff
  refine ⟨depths, fun few parameter depth => (depths parameter depth).trans ?_,
    fun parameter => ?_, ?_, ?_⟩
  · constructor
    · rintro ⟨passed, first, counted⟩
      rwa [counted, Nat.mod_eq_of_lt (first.position_lt.trans_le few)]
    · intro first
      exact ⟨_, first, (Nat.mod_eq_of_lt depth.toNat_lt).symm⟩
  · rw [find?_eq_some_iff, frames]
  · rw [size, frames, length_flatten_framesOf]
  · rw [isEmpty, List.isEmpty_iff, size, List.length_eq_zero_iff, List.flatten_eq_nil_iff]
    constructor
    · intro none
      simp [none]
    · intro empty
      exact List.eq_nil_iff_forall_not_mem.2 fun frame here =>
        scope.frames_ne_nil frame here (empty frame here)

/-- Lists that put `outer` behind a number of lists with `inner` alone. -/
def behind (count : Nat) (outer inner : TypeParameter) : List (List TypeParameter) :=
  [outer] :: List.replicate count [inner]

theorem firstAt_behind (count : Nat) {outer inner : TypeParameter} (apart : inner.id ≠ outer.id) :
    FirstAt (framesOf (behind count outer inner)) outer.id count outer := by
  have frames : framesOf (behind count outer inner) =
      List.replicate count [inner] ++ [[outer]] := by
    rw [behind, framesOf_cons]
    simp [framesOf]
  rw [frames]
  refine ⟨rfl, ⟨[], [], by simp, by simp⟩, fun frame among other here => ?_⟩
  rw [List.take_left' List.length_replicate] at among
  rw [List.eq_of_mem_replicate among, List.mem_singleton] at here
  exact here ▸ apart

/-- Lookups are exact behind few lists, such as a single one. -/
theorem findWithDepth?_exact_behind_one :
    let outer : TypeParameter := { id := 1, name := "A", index := 0, owner := ⟨0⟩ }
    let inner : TypeParameter := { id := 0, name := "B", index := 0, owner := ⟨1⟩ }
    (framesOf (behind 1 outer inner)).length ≤ UInt16.size ∧
      (ofPushed (behind 1 outer inner)).findWithDepth? 1 = some (outer, 1) :=
  ⟨by decide, ((findWithDepth?_exact _ 1).2.1 (by decide) _ 1).2 (firstAt_behind 1 (by decide))⟩

/-- The depth is not always the number of lists passed over: with 2 ^ 16 of them it is reported as
0. -/
theorem not_forall_depth : ¬ ∀ pushed id parameter depth,
    (ofPushed pushed).findWithDepth? id = some (parameter, depth) ↔
      FirstAt (framesOf pushed) id depth.toNat parameter := by
  intro exact
  let outer : TypeParameter := { id := 1, name := "A", index := 0, owner := ⟨0⟩ }
  let inner : TypeParameter := { id := 0, name := "", index := 0, owner := ⟨0⟩ }
  have first : FirstAt (framesOf (behind UInt16.size outer inner)) 1 UInt16.size outer :=
    firstAt_behind _ (by decide)
  have found : (ofPushed (behind UInt16.size outer inner)).findWithDepth? 1 = some (outer, 0) :=
    findWithDepth?_eq_some_iff.2 ⟨UInt16.size, frames_ofPushed _ ▸ first, rfl⟩
  have innermost := (exact _ 1 outer 0).1 found
  exact absurd (innermost.position_eq first) (by decide)

end ParameterScope

end ClassSymbols
