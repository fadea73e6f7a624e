import Mathlib.Data.List.Forall2
import Mathlib.Data.List.Induction

/-!
# Traversals of lists

A traversal of a list that may fail succeeds iff every step does, and then its results are those of
the steps.
-/

namespace ClassSymbols

variable {ε α β γ : Type}

theorem Except.bind_eq_ok_iff {x : Except ε α} {f : α → Except ε β} {b : β} :
    (x >>= f) = .ok b ↔ ∃ a, x = .ok a ∧ f a = .ok b := by
  cases x with
  | error e => simp [bind, Except.bind]
  | ok a => simp [bind, Except.bind]

theorem Except.mapError_eq_ok_iff {ε' : Type} {f : ε → ε'} {x : Except ε α} {a : α} :
    x.mapError f = .ok a ↔ x = .ok a := by
  cases x <;> simp [Except.mapError]

theorem mapM_eq_ok_iff {f : α → Except ε β} {xs : List α} {ys : List β} :
    xs.mapM f = .ok ys ↔ List.Forall₂ (fun x y => f x = .ok y) xs ys := by
  induction xs generalizing ys with
  | nil => cases ys <;> simp [pure, Except.pure]
  | cons x xs ih =>
    simp only [List.mapM_cons, Except.bind_eq_ok_iff, ih, List.forall₂_cons_left_iff]
    constructor
    · rintro ⟨y, hy, ys', hys, h⟩
      exact ⟨y, ys', hy, hys, (Except.ok.inj h).symm⟩
    · rintro ⟨y, ys', hy, hys, rfl⟩
      exact ⟨y, hy, ys', hys, rfl⟩

/-- Traversals whose steps give the same in turn give the same. -/
theorem mapM_eq_of_forall₂ {f : α → Except ε γ} {g : β → Except ε γ} {xs : List α} {ys : List β}
    (h : List.Forall₂ (fun x y => g y = f x) xs ys) : ys.mapM g = xs.mapM f := by
  induction h with
  | nil => rfl
  | cons first _ ih => rw [List.mapM_cons, List.mapM_cons, first, ih]

theorem exists_forall₂ {R : α → β → Prop} {xs : List α} (each : ∀ x ∈ xs, ∃ y, R x y) :
    ∃ ys, List.Forall₂ R xs ys := by
  induction xs with
  | nil => exact ⟨[], .nil⟩
  | cons x xs ih =>
    obtain ⟨y, hy⟩ := each x List.mem_cons_self
    obtain ⟨ys, hys⟩ := ih fun z hz => each z (List.mem_cons_of_mem _ hz)
    exact ⟨y :: ys, .cons hy hys⟩

/-- A traversal succeeds if each of its steps does. -/
theorem exists_mapM_eq_ok {f : α → Except ε β} {xs : List α} (steps : ∀ x ∈ xs, ∃ y, f x = .ok y) :
    ∃ ys, xs.mapM f = .ok ys := by
  obtain ⟨ys, each⟩ := exists_forall₂ steps
  exact ⟨ys, mapM_eq_ok_iff.2 each⟩

/-- A sequence whose parts give translated results gives a translated result, and fails as it
does. -/
theorem Except.bind_translate {α' β' : Type} {x : Except ε α} {x' : Except ε α'}
    {f : α → Except ε β} {f' : α' → Except ε β'} {g : α → α'} {h : β → β'} (first : x' = x.map g)
    (later : ∀ a, f' (g a) = (f a).map h) : (x' >>= f') = (x >>= f).map h := by
  subst first
  cases x with
  | error e => rfl
  | ok a => exact later a

/-- A sequence whose second part gives translated results. -/
theorem Except.bind_translate_right {β' : Type} {x : Except ε α} {f : α → Except ε β}
    {f' : α → Except ε β'} {h : β → β'} (later : ∀ a, f' a = (f a).map h) :
    (x >>= f') = (x >>= f).map h := by
  cases x with
  | error e => rfl
  | ok a => exact later a

/-- A traversal of translated elements gives translated results, and fails as it does. -/
theorem mapM_translate {α' β' : Type} {f : α → Except ε β} {f' : α' → Except ε β'} {g : α → α'}
    {h : β → β'} (translates : ∀ a, f' (g a) = (f a).map h) (xs : List α) :
    (xs.map g).mapM f' = (xs.mapM f).map (List.map h) := by
  induction xs with
  | nil => rfl
  | cons x xs ih =>
    rw [List.map_cons, List.mapM_cons, List.mapM_cons]
    exact Except.bind_translate (translates x) fun y => Except.bind_translate ih fun ys => rfl

/-- A traversal whose steps give translated results. -/
theorem mapM_translate_right {β' : Type} {f : α → Except ε β} {f' : α → Except ε β'} {h : β → β'}
    (translates : ∀ a, f' a = (f a).map h) (xs : List α) :
    xs.mapM f' = (xs.mapM f).map (List.map h) := by
  simpa using mapM_translate (g := id) translates xs

theorem Option.mapM_translate {β' : Type} {f : α → Except ε β} {f' : α → Except ε β'} {h : β → β'}
    (translates : ∀ a, f' a = (f a).map h) (x : Option α) :
    x.mapM f' = (x.mapM f).map (Option.map h) := by
  cases x with
  | none => rfl
  | some a =>
    rw [Option.mapM_some, Option.mapM_some, translates]
    cases f a <;> rfl

/-- That a computation succeeds, or why it fails. -/
def verdict {α : Type} (x : Except ε α) : Except ε Unit := x.map fun _ => ()

@[simp] theorem verdict_map (x : Except ε α) (f : α → β) : verdict (x.map f) = verdict x := by
  cases x <;> rfl

theorem verdict_eq_error_iff {x : Except ε α} {e : ε} : verdict x = .error e ↔ x = .error e := by
  cases x <;> simp [verdict, Except.map]

theorem verdict_eq_ok_iff {x : Except ε α} : verdict x = .ok () ↔ ∃ a, x = .ok a := by
  cases x <;> simp [verdict, Except.map]

/-- A sequence fails with the first of its parts that fails. -/
theorem verdict_bind {α' β' : Type} {x : Except ε α} {x' : Except ε α'} {f : α → Except ε β}
    {f' : α' → Except ε β'} (first : verdict x = verdict x')
    (later : ∀ a a', verdict (f a) = verdict (f' a')) :
    verdict (x >>= f) = verdict (x' >>= f') := by
  cases x with
  | error e =>
    rw [verdict_eq_error_iff.1 (first.symm.trans rfl)]
    rfl
  | ok a =>
    obtain ⟨a', rfl⟩ := verdict_eq_ok_iff.1 (first.symm.trans rfl)
    exact later a a'

theorem exists_mem_of_forall₂ {R : α → β → Prop} {xs : List α} {ys : List β}
    (h : List.Forall₂ R xs ys) {y : β} (hy : y ∈ ys) : ∃ x ∈ xs, R x y := by
  induction h with
  | nil => simp at hy
  | cons hxy _ ih =>
    rcases List.mem_cons.1 hy with rfl | hy
    · exact ⟨_, List.mem_cons_self, hxy⟩
    · obtain ⟨x, hx, hR⟩ := ih hy
      exact ⟨x, List.mem_cons_of_mem _ hx, hR⟩

theorem forall₂_and_right {R : α → β → Prop} {p : β → Prop} {xs : List α} {ys : List β} :
    List.Forall₂ (fun x y => R x y ∧ p y) xs ys ↔ List.Forall₂ R xs ys ∧ ∀ y ∈ ys, p y := by
  constructor
  · intro h
    refine ⟨h.imp fun _ _ both => both.1, fun y hy => ?_⟩
    obtain ⟨_, -, both⟩ := exists_mem_of_forall₂ h hy
    exact both.2
  · rintro ⟨h, all⟩
    induction h with
    | nil => exact .nil
    | cons first _ ih =>
      exact .cons ⟨first, all _ List.mem_cons_self⟩
        (ih fun y hy => all y (List.mem_cons_of_mem _ hy))

theorem exists_mem_of_forall₂_left {R : α → β → Prop} {xs : List α} {ys : List β}
    (h : List.Forall₂ R xs ys) {x : α} (hx : x ∈ xs) : ∃ y ∈ ys, R x y :=
  exists_mem_of_forall₂ (R := fun y x => R x y) h.flip hx

theorem exists_getElem?_of_forall₂ {R : α → β → Prop} {xs : List α} {ys : List β}
    (h : List.Forall₂ R xs ys) {k : Nat} {x : α} (hk : xs[k]? = some x) :
    ∃ y, ys[k]? = some y ∧ R x y := by
  induction h generalizing k with
  | nil => cases hk
  | @cons _ y _ _ related _ ih =>
    cases k with
    | zero => exact ⟨y, rfl, Option.some.inj hk ▸ related⟩
    | succ k => exact ih hk

/-- Pairs of the elements of a list with the answers that a function gives for them. -/
theorem filterMap_zip_of_forall₂ {f : α → Option β} {xs : List α} {ys : List (Option β)}
    (h : List.Forall₂ (fun x y => f x = y) xs ys) :
    ((xs.zip ys).filterMap fun (x, y) => y.map (x, ·)) = xs.filterMap fun x =>
      (f x).map (x, ·) := by
  induction h with
  | nil => rfl
  | cons hxy _ ih => rw [List.zip_cons_cons, List.filterMap_cons, List.filterMap_cons, ih, hxy]

/-- One element of a list contributes all, if the others are related with it and so contribute
nothing. -/
theorem flatMap_eq_of_pairwise {list : List α} {R : α → α → Prop} (h : list.Pairwise R) {a : α}
    (ha : a ∈ list) {f : α → List β} (none : ∀ b ∈ list, R a b ∨ R b a → f b = []) :
    list.flatMap f = f a := by
  obtain ⟨before, after, rfl⟩ := List.append_of_mem ha
  have apartBefore := (List.pairwise_append.1 h).2.2
  have apartAfter := (List.pairwise_cons.1 (List.pairwise_append.1 h).2.1).1
  rw [List.flatMap_append, List.flatMap_cons, List.flatMap_eq_nil_iff.2, List.flatMap_eq_nil_iff.2,
    List.nil_append, List.append_nil]
  · intro b hb
    exact none b (by simp [hb]) (.inl (apartAfter b hb))
  · intro b hb
    exact none b (by simp [hb]) (.inr (apartBefore b hb a List.mem_cons_self))

/-- Choosing what the chosen elements of a list contribute, when the others contribute nothing of
the kind. -/
theorem filter_flatMap_eq {list : List α} {f : α → List β} {p : α → Bool} {q : β → Bool}
    (agree : ∀ a ∈ list, ∀ b ∈ f a, q b = p a) :
    (list.flatMap f).filter q = (list.filter p).flatMap f := by
  induction list with
  | nil => rfl
  | cons a rest ih =>
    have first := agree a List.mem_cons_self
    rw [List.flatMap_cons, List.filter_append,
      ih fun a ha => agree a (List.mem_cons_of_mem _ ha), List.filter_cons]
    cases chosen : p a with
    | false =>
      rw [List.filter_eq_nil_iff.2 fun b hb => by simp [first b hb, chosen]]
      rfl
    | true =>
      rw [List.filter_eq_self.2 fun b hb => by rw [first b hb, chosen]]
      rfl

/-- Choosing positions of a list is choosing elements. -/
theorem filterMap_getElem?_filter_range (list : List α) {p : Nat → Bool} {q : α → Bool}
    (agree : ∀ i a, list[i]? = some a → p i = q a) :
    ((List.range list.length).filter p).filterMap (list[·]?) = list.filter q := by
  induction list using List.reverseRecOn with
  | nil => rfl
  | append_singleton before a ih =>
    have earlier : ((List.range before.length).filter p).filterMap ((before ++ [a])[·]?) =
        ((List.range before.length).filter p).filterMap (before[·]?) := by
      refine List.filterMap_congr fun i hi => ?_
      have below := List.mem_range.1 (List.mem_filter.1 hi).1
      exact List.getElem?_append_left below
    have last : (before ++ [a])[before.length]? = some a := by simp
    have same := agree before.length a last
    rw [List.length_append, List.length_singleton, List.range_succ, List.filter_append,
      List.filterMap_append, earlier, ih fun i b hb => agree i b ?_, List.filter_append]
    · cases hp : p before.length <;> simp [hp, ← same]
    · rw [List.getElem?_append_left (List.getElem?_eq_some_iff.1 hb).1]
      exact hb

end ClassSymbols
