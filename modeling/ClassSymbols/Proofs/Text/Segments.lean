import ClassSymbols.Text.Blank
import ClassSymbols.Text.Segments
import Mathlib.Data.List.TakeWhile

/-!
# Joined words are cut apart again

Words that are joined by a separator with blanks around it are the segments at the separator, up to
the blanks.

## Main definitions

* `Text.Unbroken` — words without blanks and without a separator.

## Main statements

* `Text.map_trim_segments` — the segments of joined words.
-/

namespace ClassSymbols.Text

variable {separator : Char} {word cs : List Char}

/-- Whether a word has neither blanks nor a separator in it. -/
def Unbroken (separator : Char) (word : List Char) : Prop :=
  ∀ c ∈ word, isBlank c = false ∧ c ≠ separator

/-! ## Segments -/

theorem cut_append (plain : separator ∉ word) (cs : List Char) :
    cut separator (word ++ separator :: cs) = (word, segments separator cs) := by
  induction word with
  | nil => simp [cut, segments]
  | cons c word ih => grind [cut]

@[simp] theorem segments_append (plain : separator ∉ word) (cs : List Char) :
    segments separator (word ++ separator :: cs) = word :: segments separator cs := by
  rw [segments, cut_append plain]

@[simp] theorem segments_eq_singleton (plain : separator ∉ cs) : segments separator cs = [cs] := by
  have whole : cut separator cs = (cs, []) := by
    induction cs with
    | nil => rfl
    | cons c cs ih => grind [cut]
  rw [segments, whole]

/-- A character before a text that is no separator belongs to the first segment. -/
theorem segments_cons_of_ne {c : Char} (other : c ≠ separator) (cs : List Char) :
    segments separator (c :: cs) = (c :: (cut separator cs).1) :: (cut separator cs).2 := by
  simp [segments, cut, other]

/-! ## Blanks at the ends -/

theorem Unbroken.notMem (h : Unbroken separator word) : separator ∉ word :=
  fun hs => (h separator hs).2 rfl

theorem trimStart_of_unbroken (h : Unbroken separator word) : trimStart word = word := by
  cases word with
  | nil => rfl
  | cons c word => simp [trimStart, (h c List.mem_cons_self).1]

theorem Unbroken.reverse (h : Unbroken separator word) : Unbroken separator word.reverse :=
  fun c hc => h c (List.mem_reverse.1 hc)

theorem trimEnd_of_unbroken (h : Unbroken separator word) : trimEnd word = word := by
  have kept := trimStart_of_unbroken h.reverse
  rw [trimStart] at kept
  rw [trimEnd, kept, List.reverse_reverse]

theorem trim_of_unbroken (h : Unbroken separator word) : trim word = word := by
  rw [trim, trimStart_of_unbroken h, trimEnd_of_unbroken h]

@[simp] theorem trim_cons_of_isBlank {c : Char} (blank : isBlank c = true) (cs : List Char) :
    trim (c :: cs) = trim cs := by
  simp [trim, trimStart, blank]

theorem trimEnd_concat_of_isBlank {c : Char} (blank : isBlank c = true) (cs : List Char) :
    trimEnd (cs ++ [c]) = trimEnd cs := by
  simp [trimEnd, blank]

theorem trim_concat_of_isBlank {c : Char} (blank : isBlank c = true) (h : Unbroken separator word) :
    trim (word ++ [c]) = word := by
  cases word with
  | nil => simp [trim, trimStart, trimEnd, blank]
  | cons d word =>
    have kept : trimStart (d :: word ++ [c]) = d :: word ++ [c] := by
      simp [trimStart, (h d List.mem_cons_self).1]
    rw [trim, kept, trimEnd_concat_of_isBlank blank, trimEnd_of_unbroken h]

/-- A text of blanks has one segment, of which nothing is left. -/
theorem map_trim_segments_of_isAllBlank (blank : isAllBlank cs = true)
    (visible : isBlank separator = false) :
    (segments separator cs).map trim = [[]] := by
  rw [isAllBlank, List.all_eq_true] at blank
  have plain : separator ∉ cs := fun h => by simp [blank separator h] at visible
  have rest : trimStart cs = [] := List.dropWhile_eq_nil_iff.2 blank
  simp [plain, trim, rest, trimEnd]

/-! ## Joined words -/

/-- Words joined by a separator with blanks around it are its segments, up to the blanks. -/
theorem map_trim_segments {words : List (List Char)} (nonempty : words ≠ [])
    (unbroken : ∀ word ∈ words, Unbroken separator word) (visible : isBlank separator = false) :
    (segments separator (List.intercalate [' ', separator, ' '] words)).map trim = words := by
  have blank : isBlank ' ' = true := rfl
  have other : ' ' ≠ separator := fun e => by simp [← e, blank] at visible
  induction words with
  | nil => contradiction
  | cons word rest ih =>
    have here := unbroken word List.mem_cons_self
    cases rest with
    | nil => simp [List.intercalate, trim_of_unbroken here, here.notMem]
    | cons next rest =>
      have plain : separator ∉ word ++ [' '] := by simp [here.notMem, Ne.symm other]
      have joined : List.intercalate [' ', separator, ' '] (word :: next :: rest) =
          (word ++ [' ']) ++ separator :: ' ' ::
            List.intercalate [' ', separator, ' '] (next :: rest) := by
        simp [List.intercalate]
      have ih := ih (by simp) fun other ho => unbroken other (List.mem_cons_of_mem _ ho)
      rw [joined, segments_append plain, List.map_cons, trim_concat_of_isBlank blank here,
        segments_cons_of_ne other, List.map_cons, trim_cons_of_isBlank blank, ← List.map_cons]
      exact congrArg (word :: ·) ih

end ClassSymbols.Text
