import ClassSymbols.Diagnostic.Basic
import Mathlib.Data.List.Infix

/-!
# Arguments put in one after the other, and all at once

A template's arguments are put in one after the other, so that a later one also replaces its place
where an earlier one brought it in, or where an earlier one completed it. Where braces are paired,
in the template and in the arguments, no place is made up of pieces of several texts. There all
arguments are put in at once, after the later ones have been put into each.

## Main definitions

* `Text.replaceEach` — the replacement of several pieces of text, all at once.
* `Text.Paired` — texts in which each opening brace is closed before the next one opens.
* `places`, `expansions` — the places of a message with the arguments, as they are and with later
  ones put in.

## Main statements

* `Text.replaceEach_replaceEach` — two replacements of places in a row are one.
* `formatMessage_at_once` — the message that a template makes.
* `not_forall_formatMessage` — an argument that holds the place of a later one is not left as it is.
-/

namespace ClassSymbols

namespace Text

/-! ## Replacements all at once -/

/-- The text in which the occurrences of some pieces, found from left to right without overlaps, are
replaced. The number counts the characters of an occurrence that are left to be passed over. -/
def replaceEachFrom (pieces : List (List Char × List Char)) : Nat → List Char → List Char
  | _, [] => []
  | n + 1, _ :: rest => replaceEachFrom pieces n rest
  | 0, c :: rest =>
    match pieces.find? (·.1.isPrefixOf (c :: rest)) with
    | some (piece, replacement) => replacement ++ replaceEachFrom pieces (piece.length - 1) rest
    | none => c :: replaceEachFrom pieces 0 rest

/-- The text in which the occurrences of some pieces that are not empty, found from left to right
without overlaps, are replaced, all at once: no replacement is searched for pieces. -/
def replaceEach (pieces : List (List Char × List Char)) (text : List Char) : List Char :=
  replaceEachFrom pieces 0 text

variable {pieces later : List (List Char × List Char)} {text name : List Char}

theorem replaceFrom_eq_replaceEachFrom (piece replacement : List Char) (n : Nat)
    (text : List Char) :
    replaceFrom piece replacement n text = replaceEachFrom [(piece, replacement)] n text := by
  induction text generalizing n with
  | nil => cases n <;> rfl
  | cons c rest ih =>
    cases n with
    | succ n => exact ih n
    | zero =>
      by_cases here : piece.isPrefixOf (c :: rest) <;> simp [replaceFrom, replaceEachFrom, here, ih]

theorem replaceAll_eq_replaceEach (piece replacement text : List Char) :
    replaceAll piece replacement text = replaceEach [(piece, replacement)] text :=
  replaceFrom_eq_replaceEachFrom piece replacement 0 text

theorem replaceEachFrom_append (passed : List Char) :
    replaceEachFrom pieces passed.length (passed ++ text) = replaceEach pieces text := by
  induction passed with
  | nil => rfl
  | cons c passed ih => exact ih

theorem replaceEach_eq_self (absent : ∀ piece ∈ pieces, ¬ piece.1 <:+: text) :
    replaceEach pieces text = text := by
  induction text with
  | nil => rfl
  | cons c rest ih =>
    have none : pieces.find? (·.1.isPrefixOf (c :: rest)) = none :=
      List.find?_eq_none.2 fun piece among start =>
        absent piece among (List.isPrefixOf_iff_prefix.1 start).isInfix
    rw [replaceEach, replaceEachFrom, none]
    exact congrArg (c :: ·) (ih fun piece among inside =>
      absent piece among (List.infix_cons inside))

/-! ## Places -/

def BraceFree (text : List Char) : Prop := ∀ c ∈ text, c ≠ '\x7b' ∧ c ≠ '\x7d'

def place (name : List Char) : List Char := '\x7b' :: name ++ ['\x7d']

def ArePlaces (pieces : List (List Char × List Char)) : Prop :=
  ∀ piece ∈ pieces, ∃ name, BraceFree name ∧ piece.1 = place name

/-- Whether each opening brace of a text is closed before the next one opens. -/
inductive Paired : List Char → Prop
  | nil : Paired []
  | plain {c : Char} {rest : List Char} : c ≠ '\x7b' → Paired rest → Paired (c :: rest)
  | place {name rest : List Char} : BraceFree name → Paired rest → Paired (place name ++ rest)

theorem place_prefix_iff {other : List Char} (free : BraceFree name) (plain : BraceFree other) :
    place name <+: place other ++ text ↔ name = other := by
  have inner : name ++ ['\x7d'] <+: other ++ '\x7d' :: text ↔ name = other := by
    induction name generalizing other with
    | nil => cases other <;> simp_all [BraceFree, eq_comm]
    | cons c name ih => cases other <;> simp_all [BraceFree, List.cons_prefix_cons]
  rw [← inner]
  simp [place, List.cons_prefix_cons]

def replacementOf (pieces : List (List Char × List Char)) (name : List Char) : List Char :=
  (pieces.lookup (place name)).getD (place name)

section Places

variable (places : ArePlaces pieces)
include places

theorem replaceEach_plain {c : Char} (plain : c ≠ '\x7b') :
    replaceEach pieces (c :: text) = c :: replaceEach pieces text := by
  have none : pieces.find? (·.1.isPrefixOf (c :: text)) = none := by
    refine List.find?_eq_none.2 fun piece among start => ?_
    obtain ⟨name, -, named⟩ := places piece among
    rw [List.isPrefixOf_iff_prefix, named, place, List.cons_append, List.cons_prefix_cons] at start
    exact plain start.1.symm
  rw [replaceEach, replaceEachFrom, none]
  rfl

theorem replaceEach_append_of_notMem {plain : List Char} (closed : '\x7b' ∉ plain) :
    replaceEach pieces (plain ++ text) = plain ++ replaceEach pieces text := by
  induction plain with
  | nil => rfl
  | cons c plain ih =>
    rw [List.mem_cons, not_or] at closed
    rw [List.cons_append, replaceEach_plain places (Ne.symm closed.1), ih closed.2,
      List.cons_append]

theorem find?_place (free : BraceFree name) (text : List Char) :
    pieces.find? (·.1.isPrefixOf (place name ++ text)) =
      (pieces.lookup (place name)).map (place name, ·) := by
  induction pieces with
  | nil => rfl
  | cons piece pieces ih =>
    obtain ⟨first, rest⟩ := List.forall_mem_cons.1 places
    obtain ⟨_, replacement⟩ := piece
    obtain ⟨other, plain, rfl⟩ := first
    rw [List.find?_cons, List.lookup_cons, ih rest]
    by_cases same : other = name
    · subst same
      have start : (place other).isPrefixOf (place other ++ text) = true :=
        List.isPrefixOf_iff_prefix.2 (List.prefix_append _ text)
      simp only [start, BEq.rfl, Option.map_some]
    · have apart : (place other).isPrefixOf (place name ++ text) = false :=
        Bool.eq_false_iff.2 fun start =>
          same ((place_prefix_iff plain free).1 (List.isPrefixOf_iff_prefix.1 start))
      have distinct : (place name == place other) = false :=
        beq_false_of_ne fun h => same (by simpa [place] using h.symm)
      simp only [apart, distinct]

theorem replaceEach_place (free : BraceFree name) :
    replaceEach pieces (place name ++ text) =
      replacementOf pieces name ++ replaceEach pieces text := by
  have found := find?_place places free text
  have closed : '\x7b' ∉ name ++ ['\x7d'] := by
    simpa using fun among => (free _ among).1 rfl
  rw [replacementOf]
  cases known : pieces.lookup (place name) with
  | none =>
    rw [known] at found
    have untouched : replaceEach pieces (place name ++ text) =
        '\x7b' :: replaceEach pieces (name ++ ['\x7d'] ++ text) := by
      rw [place, List.cons_append, List.cons_append] at found ⊢
      rw [replaceEach, replaceEachFrom, found]
      rfl
    rw [untouched, replaceEach_append_of_notMem places closed]
    rfl
  | some replacement =>
    rw [known] at found
    have replaced : replaceEach pieces (place name ++ text) =
        replacement ++ replaceEachFrom pieces (name ++ ['\x7d']).length
          (name ++ ['\x7d'] ++ text) := by
      rw [place, List.cons_append, List.cons_append] at found ⊢
      rw [replaceEach, replaceEachFrom, found]
      rfl
    rw [replaced, replaceEachFrom_append]
    rfl

/-- Where braces are paired, texts that follow each other do not make up a place together. -/
theorem replaceEach_append {first : List Char} (paired : Paired first) :
    replaceEach pieces (first ++ text) = replaceEach pieces first ++ replaceEach pieces text := by
  induction paired with
  | nil => rfl
  | plain other _ ih =>
    rw [List.cons_append, replaceEach_plain places other, replaceEach_plain places other, ih,
      List.cons_append]
  | place free _ ih =>
    rw [List.append_assoc, replaceEach_place places free, replaceEach_place places free, ih,
      List.append_assoc]

end Places

theorem Paired.append {first second : List Char} (one : Paired first) (two : Paired second) :
    Paired (first ++ second) := by
  induction one with
  | nil => exact two
  | plain other _ ih => exact .plain other ih
  | place free _ ih => exact List.append_assoc .. ▸ .place free ih

theorem paired_replacementOf (paired : ∀ piece ∈ pieces, Paired piece.2) (free : BraceFree name) :
    Paired (replacementOf pieces name) := by
  rw [replacementOf]
  cases known : pieces.lookup (place name) with
  | none => exact List.append_nil (place name) ▸ .place free .nil
  | some replacement =>
    obtain ⟨before, after, rfl, -⟩ := List.lookup_eq_some_iff.1 known
    exact paired (place name, replacement) (by simp)

theorem paired_replaceEach (places : ArePlaces pieces) (paired : ∀ piece ∈ pieces, Paired piece.2)
    (whole : Paired text) : Paired (replaceEach pieces text) := by
  induction whole with
  | nil => exact .nil
  | plain other _ ih => exact replaceEach_plain places other ▸ .plain other ih
  | place free _ ih =>
    exact replaceEach_place places free ▸ (paired_replacementOf paired free).append ih

/-- The places of two replacements in a row: what the first puts in is subject to the second. -/
def inTurn (pieces later : List (List Char × List Char)) : List (List Char × List Char) :=
  pieces.map (fun piece => (piece.1, replaceEach later piece.2)) ++ later

theorem ArePlaces.inTurn (places : ArePlaces pieces) (further : ArePlaces later) :
    ArePlaces (inTurn pieces later) := by
  intro piece among
  rcases List.mem_append.1 among with among | among
  · obtain ⟨first, here, rfl⟩ := List.mem_map.1 among
    exact places first here
  · exact further piece among

theorem replacementOf_inTurn (further : ArePlaces later) (free : BraceFree name) :
    replacementOf (inTurn pieces later) name = replaceEach later (replacementOf pieces name) := by
  have mapped : (pieces.map fun piece => (piece.1, replaceEach later piece.2)).lookup (place name) =
      (pieces.lookup (place name)).map (replaceEach later) := by
    induction pieces with
    | nil => rfl
    | cons piece pieces ih =>
      rw [List.map_cons, List.lookup_cons, List.lookup_cons, ih]
      cases place name == piece.1 <;> rfl
  rw [replacementOf, inTurn, List.lookup_append, mapped, replacementOf]
  cases pieces.lookup (place name) with
  | none =>
    rw [Option.map_none, Option.none_or, Option.getD_none, ← List.append_nil (place name),
      replaceEach_place further free, List.append_nil]
    exact (List.append_nil _).symm
  | some replacement => rfl

/-- Two replacements of places in a row are one. -/
theorem replaceEach_replaceEach (places : ArePlaces pieces) (further : ArePlaces later)
    (paired : ∀ piece ∈ pieces, Paired piece.2) (whole : Paired text) :
    replaceEach later (replaceEach pieces text) = replaceEach (inTurn pieces later) text := by
  have both := places.inTurn further
  induction whole with
  | nil => rfl
  | plain other _ ih =>
    rw [replaceEach_plain places other, replaceEach_plain further other, ih,
      replaceEach_plain both other]
  | place free _ ih =>
    rw [replaceEach_place places free,
      replaceEach_append further (paired_replacementOf paired free), ih,
      replaceEach_place both free, replacementOf_inTurn further free]

/-! ## Texts that can be checked -/

/-- Whether each opening brace is closed before the next one opens, in a text that follows an open
brace or does not. -/
def closes : Bool → List Char → Bool
  | isOpen, [] => !isOpen
  | isOpen, c :: rest =>
    if c = '\x7b' then !isOpen && closes true rest
    else if c = '\x7d' then closes false rest
    else closes isOpen rest

theorem paired_of_closes (closed : closes false text = true) : Paired text := by
  have both (text : List Char) : (closes false text = true → Paired text) ∧
      (closes true text = true → ∃ name rest,
        text = name ++ '\x7d' :: rest ∧ BraceFree name ∧ Paired rest) := by
    induction text with
    | nil => exact ⟨fun _ => .nil, fun h => nomatch h⟩
    | cons c rest ih =>
      by_cases opening : c = '\x7b'
      · subst opening
        refine ⟨fun h => ?_, fun h => nomatch h⟩
        obtain ⟨name, after, rfl, free, paired⟩ := ih.2 h
        simpa [place] using Paired.place free paired
      · by_cases closing : c = '\x7d'
        · subst closing
          exact ⟨fun h => .plain (by decide) (ih.1 h), fun h => ⟨[], rest, rfl, nofun, ih.1 h⟩⟩
        · simp only [closes, opening, closing, if_false]
          refine ⟨fun h => .plain opening (ih.1 h), fun h => ?_⟩
          obtain ⟨name, after, rfl, free, paired⟩ := ih.2 h
          exact ⟨c :: name, after, rfl, List.forall_mem_cons.2 ⟨⟨opening, closing⟩, free⟩, paired⟩
  exact (both text).1 closed

end Text

open Text

theorem MessageKind.paired_template (kind : MessageKind) : Paired kind.template.toList := by
  cases kind <;> exact paired_of_closes (by decide +kernel)

/-! ## Messages -/

def placesFrom (i : Nat) (arguments : List String) : List (List Char × List Char) :=
  (arguments.zipIdx i).map fun (argument, j) => (placeholder j, argument.toList)

/-- The places of arguments that are numbered from `i` on, with the later arguments put into
each. -/
def expansionsFrom (i : Nat) : List String → List (List Char × List Char)
  | [] => []
  | argument :: rest =>
    (placeholder i, fillFrom (i + 1) argument.toList rest) :: expansionsFrom (i + 1) rest

section Messages

variable {i : Nat} {arguments : List String} {text : List Char}

theorem exists_placeholder_eq (i : Nat) : ∃ name, BraceFree name ∧ placeholder i = place name := by
  refine ⟨(toString i).toList, fun c among => ?_, rfl⟩
  rw [Nat.toString_eq_repr, Nat.toList_repr] at among
  have digit : c.isDigit = true := Nat.isDigit_of_mem_toDigits (by decide) (by decide) among
  constructor <;> (rintro rfl; cases digit)

theorem arePlaces_expansionsFrom (i : Nat) (arguments : List String) :
    ArePlaces (expansionsFrom i arguments) := by
  induction arguments generalizing i with
  | nil => exact fun piece among => nomatch among
  | cons argument rest ih => exact List.forall_mem_cons.2 ⟨exists_placeholder_eq i, ih (i + 1)⟩

/-- Arguments that are put in one after the other are put in at once, with the later ones put into
each. -/
theorem fillFrom_eq_replaceEach (whole : Paired text)
    (paired : ∀ argument ∈ arguments, Paired argument.toList) :
    fillFrom i text arguments = replaceEach (expansionsFrom i arguments) text := by
  induction arguments generalizing i text with
  | nil => exact Eq.symm (replaceEach_eq_self (by simp [expansionsFrom]))
  | cons argument rest ih =>
    obtain ⟨first, others⟩ := List.forall_mem_cons.1 paired
    have single : ArePlaces [(placeholder i, argument.toList)] :=
      List.forall_mem_singleton.2 (exists_placeholder_eq i)
    have put : ∀ piece ∈ [(placeholder i, argument.toList)], Paired piece.2 :=
      List.forall_mem_singleton.2 first
    calc fillFrom i text (argument :: rest)
      _ = fillFrom (i + 1) (replaceEach [(placeholder i, argument.toList)] text) rest := by
        rw [fillFrom, replaceAll_eq_replaceEach]
      _ = replaceEach (expansionsFrom (i + 1) rest)
        (replaceEach [(placeholder i, argument.toList)] text) :=
        ih (paired_replaceEach single put whole) others
      _ = replaceEach (inTurn [(placeholder i, argument.toList)] (expansionsFrom (i + 1) rest))
        text :=
        replaceEach_replaceEach single (arePlaces_expansionsFrom (i + 1) rest) put whole
      _ = replaceEach (expansionsFrom i (argument :: rest)) text := by
        rw [expansionsFrom, ih first others]
        rfl

/-- A text without places of the arguments stays as it is. -/
theorem fillFrom_eq_self (absent : ∀ j < arguments.length, ¬ placeholder (i + j) <:+: text) :
    fillFrom i text arguments = text := by
  induction arguments generalizing i with
  | nil => rfl
  | cons argument rest ih =>
    have first : replaceAll (placeholder i) argument.toList text = text := by
      rw [replaceAll_eq_replaceEach,
        replaceEach_eq_self (List.forall_mem_singleton.2 (absent 0 (by simp)))]
    rw [fillFrom, first]
    exact ih fun j below => Nat.add_right_comm i j 1 ▸ absent (j + 1) (by simpa using below)

theorem expansionsFrom_eq
    (apart : ∀ j k argument, j < k → k < arguments.length → arguments[j]? = some argument →
      ¬ placeholder (i + k) <:+: argument.toList) :
    expansionsFrom i arguments = placesFrom i arguments := by
  induction arguments generalizing i with
  | nil => rfl
  | cons argument rest ih =>
    have first : fillFrom (i + 1) argument.toList rest = argument.toList := by
      refine fillFrom_eq_self fun k below => ?_
      exact Nat.add_right_comm i k 1 ▸ apart 0 (k + 1) argument (by simp) (by simpa using below) rfl
    have others : expansionsFrom (i + 1) rest = placesFrom (i + 1) rest := by
      refine ih fun j k other before below here => ?_
      exact Nat.add_right_comm i k 1 ▸ apart (j + 1) (k + 1) other (by omega)
        (by simpa using below) here
    rw [expansionsFrom, first, others]
    rfl

end Messages

/-- Where braces are paired, in the template and in each argument, the message is the template with
each place replaced by its argument, at once, after the later arguments have been put into it. So it
is the template with the arguments as they are where no argument holds the place of a later one. -/
theorem formatMessage_at_once (template : String) (arguments : List String)
    (whole : Paired template.toList) (paired : ∀ argument ∈ arguments, Paired argument.toList) :
    formatMessage template arguments =
      String.ofList (replaceEach (expansionsFrom 0 arguments) template.toList) ∧
    ((∀ i j argument, i < j → j < arguments.length → arguments[i]? = some argument →
      ¬ placeholder j <:+: argument.toList) →
      formatMessage template arguments =
        String.ofList (replaceEach (placesFrom 0 arguments) template.toList)) := by
  have filled : formatMessage template arguments =
      String.ofList (replaceEach (expansionsFrom 0 arguments) template.toList) := by
    rw [formatMessage, fillFrom_eq_replaceEach whole paired]
  refine ⟨filled, fun apart => ?_⟩
  rw [filled, expansionsFrom_eq fun i j argument => (Nat.zero_add j).symm ▸ apart i j argument]

/-- The message of a known fault, with arguments that hold their own place and places of earlier
arguments. These places stay. -/
theorem formatMessage_at_once_overrideConflict :
    let arguments := ["p.C\x7b0\x7d", "f\x7b0\x7d(): Int", "f(): \x7b1\x7d\x7b2\x7d"]
    Paired MessageKind.overrideConflict.template.toList ∧
      (∀ argument ∈ arguments, Paired argument.toList) ∧
      (∀ i j argument, i < j → j < arguments.length → arguments[i]? = some argument →
        ¬ placeholder j <:+: argument.toList) ∧
      formatMessage MessageKind.overrideConflict.template arguments =
        String.ofList (replaceEach (placesFrom 0 arguments)
          MessageKind.overrideConflict.template.toList) := by
  intro arguments
  have whole := MessageKind.overrideConflict.paired_template
  have paired : ∀ argument ∈ arguments, Paired argument.toList := by
    intro argument among
    have closed : ∀ argument ∈ arguments, closes false argument.toList = true := by decide
    exact paired_of_closes (closed argument among)
  have apart (i j : Nat) (argument : String) (before : i < j) (below : j < arguments.length)
      (here : arguments[i]? = some argument) : ¬ placeholder j <:+: argument.toList := by
    have each : ∀ j < arguments.length, ∀ i < j, ∀ argument ∈ arguments[i]?,
        ¬ placeholder j <:+: argument.toList := by decide
    exact each j below i before argument here
  exact ⟨whole, paired, apart, (formatMessage_at_once _ arguments whole paired).2 apart⟩

/-- Arguments are not always put in as they are: the place of a later argument in an earlier one is
replaced, too. -/
theorem not_forall_formatMessage : ¬ ∀ template arguments,
    formatMessage template arguments =
      String.ofList (replaceEach (placesFrom 0 arguments) template.toList) := by
  intro atOnce
  have wrong := atOnce "\x7b0\x7d \x7b1\x7d" ["\x7b1\x7d", "x"]
  exact absurd wrong (by decide)

end ClassSymbols
