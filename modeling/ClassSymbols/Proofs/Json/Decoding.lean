import ClassSymbols.Dump.Encode
import Mathlib.Data.List.Nodup

/-!
# Decoders that restore what was encoded

A decoder restores a value if it reads the value back from its encoding, given room for the arrays
and objects of the encoding. Decoders that are built from others restore what these restore.

## Main definitions

* `Json.Decoder.Restores` — whether a decoder reads a value back from its encoding.

## Main statements

* `Json.fields?_object` — the fields of an object that has all of them.
* `Json.Decoder.Restores.array`, `Json.Decoder.Restores.optional`, `Json.Decoder.Restores.of_fields`
  — what decoders of arrays, of options and of records restore.
-/

namespace ClassSymbols.Json

/-! ## Nesting -/

theorem nestingOfItems_le_iff {items : List Json} {n : Nat} :
    nestingOfItems items ≤ n ↔ ∀ item ∈ items, item.nesting ≤ n := by
  induction items with
  | nil => simp [nestingOfItems]
  | cons item rest ih => rw [nestingOfItems, Nat.max_le, ih, List.forall_mem_cons]

theorem nestingOfFields_le_iff {fields : List (String × Json)} {n : Nat} :
    nestingOfFields fields ≤ n ↔ ∀ field ∈ fields, field.2.nesting ≤ n := by
  induction fields with
  | nil => simp [nestingOfFields]
  | cons field rest ih => rw [nestingOfFields, Nat.max_le, ih, List.forall_mem_cons]

theorem nesting_array_le_iff {items : List Json} {n : Nat} :
    (array items).nesting ≤ n ↔ ∃ m, n = m + 1 ∧ ∀ item ∈ items, item.nesting ≤ m := by
  cases n <;> simp [nesting, nestingOfItems_le_iff]

theorem nesting_object_le_iff {fields : List (String × Json)} {n : Nat} :
    (object fields).nesting ≤ n ↔ ∃ m, n = m + 1 ∧ ∀ field ∈ fields, field.2.nesting ≤ m := by
  cases n <;> simp [nesting, nestingOfFields_le_iff]

/-! ## Fields -/

theorem find?_of_mem {fields : List (String × Json)} (nodup : (fields.map Prod.fst).Nodup)
    {field : String × Json} (h : field ∈ fields) : fields.find? (·.1 == field.1) = some field := by
  induction fields with
  | nil => cases h
  | cons first rest ih =>
    rw [List.map_cons, List.nodup_cons] at nodup
    rcases List.mem_cons.1 h with rfl | h
    · simp
    · have other : first.1 ≠ field.1 := fun e => nodup.1 (e ▸ List.mem_map_of_mem h)
      simp [other, ih nodup.2 h]

/-- An object with exactly the fields of a record has their values. -/
theorem fields?_object {names : List String} {fields : List (String × Json)}
    (own : names = fields.map Prod.fst) (nodup : names.Nodup) :
    fields? names (object fields) = some (fields.map fun field => some field.2) := by
  subst own
  have once : ¬((fields.map Prod.fst).any fun name => (fields.filter (·.1 == name)).length > 1) =
      true := by
    simp only [List.any_eq_true, decide_eq_true_eq, not_exists, not_and, Nat.not_lt]
    intro name _
    have count : (fields.map Prod.fst).count name ≤ 1 := List.nodup_iff_count_le_one.1 nodup name
    rw [List.count, List.countP_map, List.countP_eq_length_filter] at count
    exact count
  rw [fields?, if_neg once, List.map_map]
  refine congrArg some (List.map_congr_left fun field h => ?_)
  simp [find?_of_mem nodup h]

namespace Decoder

variable {α β : Type} {decoder : Decoder α} {encode : α → Json} {a : α}

/-- Whether a decoder with room for the encoding of `a` reads `a` back from it. -/
def Restores (decoder : Decoder α) (encode : α → Json) (a : α) : Prop :=
  ∀ n, (encode a).nesting ≤ n → decoder n (encode a) = some a

theorem Restores.anyDepth (h : decoder.Restores encode a) : decoder.anyDepth (encode a) = some a :=
  h _ (Nat.le_refl _)

/-! ## Simple values -/

@[simp] theorem bool_bool (n : Nat) (value : Bool) :
    bool n (.bool value) = some value := by cases n <;> rfl

@[simp] theorem string_string (n : Nat) (text : String) :
    string n (.string text) = some text := by cases n <;> rfl

@[simp] theorem word_ofWord (n : Nat) (value : UInt32) : word n (ofWord value) = some value := by
  have fits : value.toNat < UInt32.size := value.toNat_lt
  have unfolded : word n (ofWord value) =
      if value.toNat < UInt32.size then some (UInt32.ofNat value.toNat) else none := by cases n <;>
        rfl
  rw [unfolded, if_pos fits, UInt32.ofNat_toNat]

@[simp] theorem keyword_encode [Keyword α] (n : Nat) (a : α) :
    Keyword.decoder n (Keyword.encode a) = some a := by
  have unfolded : (Keyword.decoder n (Keyword.encode a) : Option α) =
      Keyword.ofText? (Keyword.text a) := by
    cases n <;> rfl
  rw [unfolded, Keyword.ofText?_text]

theorem restores_string (text : String) : string.Restores .string text :=
  fun n _ => string_string n text

/-! ## Arrays, options and records -/

theorem mapM_map_eq_some {decode : Json → Option α} {as : List α}
    (h : ∀ a ∈ as, decode (encode a) = some a) :
    (as.map encode).mapM decode = some as := by
  induction as with
  | nil => rfl
  | cons a as ih =>
    have first := h a List.mem_cons_self
    have others := ih fun b hb => h b (List.mem_cons_of_mem a hb)
    simp [first, others]

theorem Restores.array {as : List α} (h : ∀ a ∈ as, decoder.Restores encode a) :
    (array decoder).Restores (ofList encode) as := by
  intro n room
  obtain ⟨n, rfl, fits⟩ := nesting_array_le_iff.1 room
  exact mapM_map_eq_some fun a ha => h a ha n (fits _ (List.mem_map_of_mem ha))

/-- An option is restored if its value is, and is not written as `null`. -/
theorem Restores.optional {option : Option α} (h : ∀ a, option = some a → decoder.Restores encode a)
    (visible : ∀ a, encode a ≠ .null) {n : Nat} (room : (ofOption encode option).nesting ≤ n) :
    optional (decoder n) (some (ofOption encode option)) = some option := by
  cases option with
  | none => rfl
  | some a =>
    have read := h a rfl n room
    have unfolded : Decoder.optional (decoder n) (some (ofOption encode (some a))) =
        (decoder n (encode a)).map some := by
      have := visible a
      rw [ofOption, Decoder.optional]
      simp [this]
    rw [unfolded, read]
    rfl

/-- A record is restored if its fields are, with room for one object less. -/
theorem Restores.of_fields {fields : List (String × Json)} (written : encode a = .object fields)
    (reads : ∀ n, (∀ field ∈ fields, field.2.nesting ≤ n) → decoder (n + 1)
      (.object fields) = some a) :
    decoder.Restores encode a := by
  intro n room
  rw [written] at room ⊢
  obtain ⟨n, rfl, fits⟩ := nesting_object_le_iff.1 room
  exact reads n fits

end Decoder

end ClassSymbols.Json
