import ClassSymbols.Proofs.Resolution.Settling
import ClassSymbols.Proofs.Runs.Courses

/-!
# Declarations that correspond

In two courses that start alike, a declaration may have different ids. What was there at the start
corresponds to itself, members correspond if they are at one position of classes that correspond,
and local declarations may correspond if they were resolved from one record inside declarations that
correspond. A renaming that takes each declaration to the one that it corresponds to renames all
that was read.

## Main definitions

* `Corresponds` — whether two ids are those of one declaration in two courses.
* `Parallel` — two courses that start alike, with a choice of local declarations that belong
  together.
* `FoundAlike` — two courses in which the classes above one find declarations that correspond.

## Main statements

* `Parallel.agree` — what corresponds is renamed declarations.
* `Parallel.pairs`, `Parallel.aligned` — runs of the two courses are aligned by what corresponds.
* `Parallel.exists_accord` — courses in which classes are found alike are in accord.
-/

namespace ClassSymbols

open Relation Store

/-- Whether two ids are those of one declaration in two courses: one that was there at the start,
the members at one position of the lists of one class, or local declarations that were resolved from
one record inside one declaration. A record may be resolved several times, so it is chosen which of
them belong together. -/
inductive Corresponds (A B : Course) (choice : DeclId → DeclId → Prop) : DeclId → DeclId → Prop
  | shared {id : DeclId} : id.number < A.start.store.next.number → Corresponds A B choice id id
  | member {a b x y : DeclId} {xs ys : List DeclId} {i : Nat} : Corresponds A B choice a b →
      A.finish.store.members? a = some xs → B.finish.store.members? b = some ys → xs[i]? = some x →
      ys[i]? = some y →
      Corresponds A B choice x y
  | resolved {target : RecordRef} {a b x y : DeclId} :
    Corresponds A B choice a b → A.Registers target a x →
      B.Registers target b y → choice x y → Corresponds A B choice x y

/-- Two courses that start alike, at a module that has just been loaded, and a choice in which no
local declaration belongs together with two others. -/
structure Parallel (A B : Course) (choice : DeclId → DeclId → Prop) : Prop where
  begins : A.Begins
  start : B.start = A.start
  table : B.table = A.table
  biUnique : Relator.BiUnique choice

/-- Whether the class ids that the classes above one ask for are found alike in two courses, while
these classes are resolved. -/
def FoundAlike (A B : Course) (choice : DeclId → DeclId → Prop) (id : DeclId) : Prop :=
  ∀ {a a' k}, ReflTransGen (A.finish.store.Uses A.Finds) id a → Corresponds A B choice a a' →
    A.finish.store.Asks A.finish.effective.options.relation A.Finds a k →
    ∃ b b', A.Finds a k b ∧ B.Finds a' k b' ∧ Option.Rel (Corresponds A B choice) b b'

theorem Course.Begins.explored {course : Course} (h : course.Begins) :
    course.start.store.Explored course.finish.store := by
  obtain ⟨log, run, -⟩ := h.exists_run
  exact run.explored ⟨h.loaded, .refl _, h.loaded.toSound, h.described⟩

namespace Parallel

variable {A B : Course} {choice : DeclId → DeclId → Prop} (h : Parallel A B choice)
include h

theorem begins' : B.Begins := by
  obtain ⟨fresh, loaded, recorded⟩ := h.begins
  rw [← h.start] at fresh loaded recorded
  exact ⟨fresh, loaded, recorded⟩

theorem explored : A.start.store.Explored A.finish.store := h.begins.explored

theorem explored' : A.start.store.Explored B.finish.store := h.start ▸ h.begins'.explored

theorem swap : Parallel B A (Function.swap choice) where
  begins := h.begins'
  start := h.start.symm
  table := h.table.symm
  biUnique := ⟨fun _ _ _ chosen chosen' => h.biUnique.2 chosen chosen',
    fun _ _ _ chosen chosen' => h.biUnique.1 chosen chosen'⟩

theorem corresponds_swap {x y : DeclId} (same : Corresponds A B choice x y) :
    Corresponds B A (Function.swap choice) y x := by
  induction same with
  | shared below => exact .shared (h.start ▸ below)
  | member _ known known' at_x at_y ih => exact .member ih known' known at_y at_x
  | resolved _ registers registers' chosen ih => exact .resolved ih registers' registers chosen

/-- A declaration corresponds to at most one. -/
theorem unique {x y y' : DeclId} (same : Corresponds A B choice x y)
    (same' : Corresponds A B choice x y') : y = y' := by
  induction same generalizing y' with
  | shared below =>
    cases same' with
    | shared => rfl
    | member _ known _ at_x _ =>
      have := h.explored.le_of_listed known (List.mem_of_getElem? at_x)
      omega
    | resolved _ registers _ _ =>
      have := (h.begins.registered registers).1
      omega
  | member _ known known' at_x at_y ih =>
    cases same' with
    | shared below =>
      have := h.explored.le_of_listed known (List.mem_of_getElem? at_x)
      omega
    | member pair again again' at_x' at_y' =>
      obtain ⟨rfl, rfl, rfl⟩ := h.explored.eq_of_listed known again at_x at_x'
      obtain rfl := ih pair
      obtain rfl := Option.some.inj (known'.symm.trans again')
      exact Option.some.inj (at_y.symm.trans at_y')
    | resolved _ registers _ _ =>
      obtain ⟨-, -, -, unlisted⟩ := h.begins.registered registers
      exact absurd (List.mem_of_getElem? at_x) (unlisted known)
  | resolved _ registers _ chosen _ =>
    obtain ⟨new, -, -, unlisted⟩ := h.begins.registered registers
    cases same' with
    | shared below => omega
    | member _ known _ at_x _ => exact absurd (List.mem_of_getElem? at_x) (unlisted known)
    | resolved _ _ _ chosen' => exact h.biUnique.2 chosen chosen'

theorem biUnique_corresponds : Relator.BiUnique (Corresponds A B choice) := by
  constructor
  · intro x y z same same'
    exact h.swap.unique (h.corresponds_swap same) (h.corresponds_swap same')
  · intro x y z same same'
    exact h.unique same same'

theorem lt_next {x y : DeclId} (same : Corresponds A B choice x y) :
    y.number < B.finish.store.next.number := by
  cases same with
  | shared below => exact Nat.lt_of_lt_of_le below h.explored'.evolves.next_le
  | member _ _ known' _ at_y =>
    exact h.explored'.sound.listed_allocated known' _ (List.mem_of_getElem? at_y)
  | resolved _ _ registers' _ => exact (h.begins'.registered registers').2.1

/-- No fake override corresponds to anything. -/
theorem apart {log : List Computation} (run : Run A.start log A.finish) {c : Computation}
    (hc : c ∈ log) {fake : Declaration} (hf : fake ∈ c.synthesis.pending) (y : DeclId) :
    ¬Corresponds A B choice fake.id y := by
  intro same
  obtain ⟨sound, before, history, follows, -⟩ := run.facts.follows c hc
  cases same with
  | shared below =>
    have grown := (history.facts run.fresh).later.store.next_le
    have := (run.facts.bounds hc hf).1
    omega
  | member _ known _ at_x _ => exact run.facts.hidden c hc fake hf known (List.mem_of_getElem? at_x)
  | resolved _ registers _ _ =>
    obtain ⟨-, -, ⟨declaration, stored, read⟩, -⟩ := h.begins.registered registers
    obtain rfl := Option.some.inj ((run.facts.get?_of_mem_pending hc hf).symm.trans stored)
    cases read.symm.trans (follows.origin_of_mem_pending sound hf)

/-- What corresponds is paired in the runs of the two courses. -/
theorem pairs {log log' : List Computation} (run : Run A.start log A.finish)
    (run' : Run B.start log' B.finish) :
    Pairs (Corresponds A B choice) log log' B.finish where
  biUnique := h.biUnique_corresponds
  below := h.lt_next
  apart hc _ hf y := h.apart run hc hf y
  apart' hc _ hf _ same := h.swap.apart run' hc hf _ (h.corresponds_swap same)

section Renamed

variable {f : DeclId → DeclId} (renames : ∀ {x y}, Corresponds A B choice x y → f x = y)
include renames

/-- What corresponds is stored or not in both stores, and renamed declarations if it is. The
contexts inside are the same up to the renaming. -/
theorem agree {x y : DeclId} (same : Corresponds A B choice x y) :
    Option.Rel (Declaration.Twin f) (A.finish.store.get? x) (B.finish.store.get? y) ∧
      ∀ within, A.finish.store.Inside x within → B.finish.store.Inside y (within.rename f) := by
  have rooted := h.begins.rooted A.actions
  have rooted' := h.begins'.rooted B.actions
  -- What is read from one record inside declarations that agree agrees again.
  have read {a b x y : DeclId} {context : ScopeContext} {record : MemberRecord} {isVariable : Bool}
      (reads : A.finish.store.ReadInside a context record isVariable x)
      (reads' : B.finish.store.ReadInside b (context.rename f) record isVariable y)
        (same : f x = y) :
      Option.Rel (Declaration.Twin f) (A.finish.store.get? x) (B.finish.store.get? y) ∧
        ∀ within, A.finish.store.Inside x within → B.finish.store.Inside y (within.rename f) :=
    ⟨reads.twin reads' same h.explored.sound.toWellFormed h.explored'.sound.toWellFormed,
      fun _ => reads.inside_rename reads' same rooted rooted'⟩
  have takes := renames same
  induction same with
  | shared below =>
    have fixed (id : DeclId) (low : id.number < A.start.store.next.number) : f id = id :=
      renames (.shared low)
    exact ⟨h.explored.twin_of_old h.explored' fixed below,
      fun _ => h.explored.inside_rename h.explored' h.begins.recorded fixed below⟩
  | @member a b x y xs ys i pair known known' at_x at_y ih =>
    obtain ⟨twins, -⟩ := ih (renames pair)
    obtain ⟨_, _, reading, reading', isClass, hr, isClass', hr', context, described, described'⟩ :=
      exists_reading h.explored.described h.explored'.described twins known known'
    obtain ⟨record, found, stores⟩ := exists_getElem?_of_forall₂ described.flip at_x
    obtain ⟨_, at_y', stores'⟩ := exists_getElem?_of_forall₂ described' found
    obtain rfl := Option.some.inj (at_y.symm.trans at_y')
    have reads' := Stores.readInside rooted' isClass' hr' known' (List.mem_of_getElem? at_y) stores'
    rw [context] at reads'
    exact read (Stores.readInside rooted isClass hr known (List.mem_of_getElem? at_x) stores) reads'
      takes
  | resolved pair registers registers' _ ih =>
    obtain ⟨-, insides⟩ := ih (renames pair)
    obtain ⟨context, record, known, reads⟩ := h.begins.exists_readInside registers
    obtain ⟨context', record', known', reads'⟩ := h.begins'.exists_readInside registers'
    obtain rfl := Except.ok.inj (known.symm.trans (h.table ▸ known'))
    obtain rfl := (insides context reads.inside).unique reads'.inside
    exact read reads reads' takes

/-- The members of classes that correspond correspond. -/
theorem members {a b : DeclId} {xs ys : List DeclId} (same : Corresponds A B choice a b)
    (known : A.finish.store.members? a = some xs) (known' : B.finish.store.members? b = some ys) :
    List.Forall₂ (Corresponds A B choice) xs ys := by
  obtain ⟨_, _, _, _, -, -, -, -, -, described, described'⟩ :=
    exists_reading h.explored.described h.explored'.described (h.agree renames same).1 known known'
  refine List.forall₂_iff_get.2 ⟨described.length_eq.symm.trans described'.length_eq,
    fun i below below' => ?_⟩
  exact .member same known known' (List.getElem?_eq_getElem below) (List.getElem?_eq_getElem below')

end Renamed

/-- The runs of the two courses are aligned by what corresponds. -/
theorem aligned {log log' : List Computation} (run : Run A.start log A.finish)
    (run' : Run B.start log' B.finish) {f : DeclId → DeclId} (injective : Function.Injective f)
    (takes : ∀ {x y}, Matched (Corresponds A B choice) log log' x y → f x = y) :
    Aligned (Corresponds A B choice) A.start B.start log log' A.finish B.finish f where
  run := run
  run' := run'
  options := by rw [run'.facts.later.options, run.facts.later.options, h.start]
  injective := injective
  fixed := takes (.pair (.shared h.begins.loaded.valid))
  takes := takes
  twin same := (h.agree (fun pair => takes (.pair pair)) same).1
  listed same known known' := h.members (fun pair => takes (.pair pair)) same known known'

/-- Two courses in which what the classes above one ask for is found alike are in accord. -/
theorem exists_accord {id : DeclId} (alike : FoundAlike A B choice id) : ∃ log log' f,
    Accord (Corresponds A B choice) A.Finds B.Finds A.start B.start log log' A.finish B.finish id
      f := by
  obtain ⟨log, run, steady⟩ := h.begins.exists_run
  obtain ⟨log', run', steady'⟩ := h.begins'.exists_run
  obtain ⟨f, injective, takes⟩ := (h.pairs run run').exists_renaming run run'
  exact ⟨log, log', f, {
    toAligned := h.aligned run run' injective takes
    described := h.begins.described
    described' := h.begins'.described
    steady
    steady'
    alike := @alike }⟩

end Parallel

end ClassSymbols
