import ClassSymbols.Proofs.Text.Segments

/-!
# Dotted names are taken apart again

Names without dots are the segments of the dotted name that they are joined to. Joining such names
loses nothing when they are also nonempty, for then no names at all are told from one empty name.

## Main definitions

* `Text.IsPlain` — nonempty names without dots.

## Main statements

* `Text.dottedSegments_dotted` — the segments of a dotted name.
* `Text.dotted_inj` — different names are joined to different dotted names.
* `Text.outerSegments?_dotted_concat`, `Text.lastSegment_dotted_concat` — what is before and after
  the last dot.
-/

namespace ClassSymbols.Text

variable {names others : List String} {name : String}

abbrev IsPlain (name : String) : Prop := name ≠ "" ∧ '.' ∉ name.toList

theorem dotted_eq_intercalate (names : List String) : dotted names = ".".intercalate names := by
  rw [← String.toList_inj, String.toList_intercalate, dotted, String.toList_ofList]
  rfl

@[simp] theorem dotted_nil : dotted [] = "" := rfl

@[simp] theorem dotted_singleton (name : String) : dotted [name] = name := by
  simp [dotted, List.intercalate]

theorem dotted_cons (nonempty : names ≠ []) (name : String) :
    dotted (name :: names) = name ++ "." ++ dotted names := by
  simp only [dotted_eq_intercalate, String.intercalate_cons_of_ne_nil nonempty]

/-- One more name at the end comes after one more dot. -/
theorem dotted_concat (nonempty : names ≠ []) (name : String) :
    dotted (names ++ [name]) = dotted names ++ "." ++ name := by
  simp only [dotted_eq_intercalate,
    String.intercalate_append_of_ne_nil nonempty (List.cons_ne_nil name []),
    String.intercalate_singleton]

theorem dottedSegments_ne_nil (name : String) : dottedSegments name ≠ [] := by
  simp [dottedSegments, segments]

theorem dottedSegments_of_notMem (plain : '.' ∉ name.toList) : dottedSegments name = [name] := by
  simp [dottedSegments, plain]

theorem dottedSegments_append (plain : '.' ∉ name.toList) (rest : String) :
    dottedSegments (name ++ "." ++ rest) = name :: dottedSegments rest := by
  have apart : (name ++ "." ++ rest).toList = name.toList ++ '.' :: rest.toList := by simp
  simp [dottedSegments, apart, plain]

/-- Names without dots are the segments of the dotted name they are joined to. -/
theorem dottedSegments_dotted (nonempty : names ≠ []) (plain : ∀ name ∈ names, '.' ∉ name.toList) :
    dottedSegments (dotted names) = names := by
  induction names with
  | nil => contradiction
  | cons name rest ih =>
    have here := plain name List.mem_cons_self
    rcases eq_or_ne rest [] with rfl | more
    · rw [dotted_singleton, dottedSegments_of_notMem here]
    · rw [dotted_cons more, dottedSegments_append here,
        ih more fun n hn => plain n (List.mem_cons_of_mem _ hn)]

/-- Nonempty names are joined to a nonempty dotted name. -/
theorem dotted_eq_empty_iff (visible : ∀ name ∈ names, name ≠ "") :
    dotted names = "" ↔ names = [] := by
  refine ⟨fun h => ?_, fun h => by rw [h, dotted_nil]⟩
  cases names with
  | nil => rfl
  | cons name rest =>
    have here := visible name List.mem_cons_self
    rcases eq_or_ne rest [] with rfl | more
    · exact absurd (dotted_singleton name ▸ h) here
    · simp [dotted_cons more, here] at h

/-- Plain names can be read off the dotted name they are joined to. -/
theorem dotted_inj (plain : ∀ name ∈ names, IsPlain name)
    (otherPlain : ∀ name ∈ others, IsPlain name) :
    dotted names = dotted others ↔ names = others := by
  refine ⟨fun same => ?_, congrArg dotted⟩
  have visible := fun name hn => (plain name hn).1
  have otherVisible := fun name hn => (otherPlain name hn).1
  by_cases none : names = []
  · rw [none, dotted_nil] at same
    rw [none, (dotted_eq_empty_iff otherVisible).1 same.symm]
  · have some : others ≠ [] :=
      fun h => none ((dotted_eq_empty_iff visible).1 (by rw [same, h, dotted_nil]))
    rw [← dottedSegments_dotted none fun name hn => (plain name hn).2, same,
      dottedSegments_dotted some fun name hn => (otherPlain name hn).2]

theorem lastSegment_dotted_concat (plain : ∀ name ∈ names, '.' ∉ name.toList)
    (last : '.' ∉ name.toList) :
    lastSegment (dotted (names ++ [name])) = name := by
  have segments : dottedSegments (dotted (names ++ [name])) = names ++ [name] :=
    dottedSegments_dotted (by simp) (by grind)
  simp [lastSegment, segments]

theorem outerSegments?_dotted_concat (nonempty : names ≠ [])
    (plain : ∀ name ∈ names, '.' ∉ name.toList) (last : '.' ∉ name.toList) :
    outerSegments? (dotted (names ++ [name])) = some (dotted names) := by
  have segments : dottedSegments (dotted (names ++ [name])) = names ++ [name] :=
    dottedSegments_dotted (by simp) (by grind)
  obtain ⟨first, rest, rfl⟩ := List.exists_cons_of_ne_nil nonempty
  rw [outerSegments?, segments, List.dropLast_concat]

end ClassSymbols.Text
