import ClassSymbols.Dump.Record
import ClassSymbols.Proofs.Text.Segments
import Mathlib.Data.List.Nodup

/-!
# Flag sets are read as they were written

The written form of a flag set says which bits are set: the named ones by their names, the others by
one hexadecimal number. Every 32-bit word is read back from it.

## Main definitions

* `FlagNames` — vocabularies that name bits of a word.

## Main statements

* `Flags.hexWord?_toDigits` — hexadecimal numbers are read as they were written.
* `Flags.ofText?_text` — flag sets are read as they were written.
-/

namespace ClassSymbols

/-- A vocabulary that names different bits of a 32-bit word. The names consist of capital letters
and underscores, so that they can be told apart from blanks, bars and numbers. -/
class FlagNames (φ : Type) [Keyword φ] : Prop where
  length_le : (Keyword.all : List φ).length ≤ 32
  nodup : ((Keyword.all : List φ).map Keyword.text).Nodup
  ne_empty : ∀ flag ∈ (Keyword.all : List φ), Keyword.text flag ≠ ""
  capitals : ∀ flag ∈ (Keyword.all : List φ),
    (Keyword.text flag).toList.all fun c => c.isUpper || c == '_'

instance : FlagNames ClassFlag := ⟨by decide, by decide, by decide, by decide⟩
instance : FlagNames FunctionFlag := ⟨by decide, by decide, by decide, by decide⟩
instance : FlagNames ConstructorFlag := ⟨by decide, by decide, by decide, by decide⟩
instance : FlagNames PropertyFlag := ⟨by decide, by decide, by decide, by decide⟩
instance : FlagNames ValueParameterFlag := ⟨by decide, by decide, by decide, by decide⟩
instance : FlagNames AccessorFlag := ⟨by decide, by decide, by decide, by decide⟩

namespace Flags

/-! ## Hexadecimal numbers -/

theorem hexDigit?_digitChar {d : Nat} (small : d < 16) : Text.hexDigit? d.digitChar = some d := by
  have all : ∀ d < 16, Text.hexDigit? d.digitChar = some d := by decide
  exact all d small

theorem hexValueFrom?_concat (n : Nat) (digits : List Char) (c : Char) :
    hexValueFrom? n (digits ++ [c]) =
    (hexValueFrom? n digits).bind fun m => (Text.hexDigit? c).map fun d => 16 * m + d := by
  induction digits generalizing n with
  | nil => cases h : Text.hexDigit? c <;> simp [hexValueFrom?, h]
  | cons digit digits ih => cases h : Text.hexDigit? digit <;> simp [hexValueFrom?, h, ih]

/-- The digits of a number spell it. -/
theorem hexValueFrom?_toDigits (n : Nat) : hexValueFrom? 0 (Nat.toDigits 16 n) = some n := by
  induction n using Nat.strongRecOn with
  | _ n ih =>
    rcases Nat.lt_or_ge n 16 with small | large
    · simp [Nat.toDigits_of_lt_base small, hexValueFrom?, hexDigit?_digitChar small]
    · have last : n % 16 < 16 := Nat.mod_lt n (by decide)
      have whole : 16 * (n / 16) + n % 16 = n := Nat.div_add_mod n 16
      rw [Nat.toDigits_of_base_le (by decide) large, hexValueFrom?_concat, ih (n / 16) (by omega),
        hexDigit?_digitChar last]
      simp [whole]

theorem exists_digit_of_mem_toDigits {n : Nat} {c : Char} (h : c ∈ Nat.toDigits 16 n) :
    ∃ d < 16, c = d.digitChar := by
  induction n using Nat.strongRecOn with
  | _ n ih =>
    rcases Nat.lt_or_ge n 16 with small | large
    · rw [Nat.toDigits_of_lt_base small, List.mem_singleton] at h
      exact ⟨n, small, h⟩
    · rw [Nat.toDigits_of_base_le (by decide) large, List.mem_append, List.mem_singleton] at h
      rcases h with h | rfl
      · exact ih (n / 16) (by omega) h
      · exact ⟨n % 16, Nat.mod_lt n (by decide), rfl⟩

/-- The digits of a word are read as the word. -/
theorem hexWord?_toDigits {n : Nat} (fits : n < UInt32.size) :
    hexWord? (Nat.toDigits 16 n) = some (UInt32.ofNat n) := by
  have plain : ∀ rest, Nat.toDigits 16 n ≠ '+' :: rest := by
    intro rest e
    obtain ⟨d, small, same⟩ := exists_digit_of_mem_toDigits (n := n) (c := '+') (by simp [e])
    have digit := hexDigit?_digitChar small
    rw [← same] at digit
    exact absurd digit (by simp [Text.hexDigit?])
  rw [hexWord?.eq_2 _ plain]
  simp [hexValueFrom?_toDigits, fits]

/-! ## Bits -/

theorem getLsbD_foldl_or (words : List UInt32) (word : UInt32) (i : Nat) :
    (words.foldl (· ||| ·) word).toBitVec.getLsbD i =
      (word.toBitVec.getLsbD i || words.any (·.toBitVec.getLsbD i)) := by
  induction words generalizing word with
  | nil => simp
  | cons first words ih => simp [ih, Bool.or_assoc]

theorem getLsbD_one_shiftLeft {bit : Nat} (fits : bit < 32) (i : Nat) :
    ((1 : UInt32) <<< UInt32.ofNat bit).toBitVec.getLsbD i = decide (i = bit) := by
  have amount : ((UInt32.ofNat bit).toBitVec % 32).toNat = bit := by
    rw [BitVec.toNat_umod]
    change bit % 2 ^ 32 % 32 = bit
    omega
  rw [UInt32.toBitVec_shiftLeft, BitVec.shiftLeft_eq', amount, BitVec.getLsbD_shiftLeft]
  change (decide (i < 32) && !decide (i < bit) && (1#32).getLsbD (i - bit)) = decide (i = bit)
  rw [BitVec.getLsbD_one]
  grind

variable {φ : Type} [Keyword φ] (flags : Flags φ)

/-- The bits without a name are those of the set above the names. -/
theorem testBit_unnamedBits (i : Nat) : flags.unnamedBits.testBit i =
    (decide ((Keyword.all : List φ).length ≤ i) && flags.bits.toBitVec.getLsbD i) := by
  rw [unnamedBits, Nat.testBit_shiftLeft, Nat.testBit_shiftRight, ← BitVec.testBit_toNat]
  by_cases above : (Keyword.all : List φ).length ≤ i
  · simp [above]
  · simp [above]

theorem unnamedBits_lt : flags.unnamedBits < UInt32.size := by
  have le : flags.unnamedBits ≤ flags.bits.toNat := by
    rw [unnamedBits, Nat.shiftLeft_eq, Nat.shiftRight_eq_div_pow]
    exact Nat.div_mul_le_self _ _
  exact Nat.lt_of_le_of_lt le flags.bits.toNat_lt

theorem getLsbD_ofNat_unnamedBits {i : Nat} (fits : i < 32) :
    (UInt32.ofNat flags.unnamedBits).toBitVec.getLsbD i =
      (decide ((Keyword.all : List φ).length ≤ i) && flags.bits.toBitVec.getLsbD i) := by
  change (BitVec.ofNat 32 flags.unnamedBits).getLsbD i = _
  rw [BitVec.getLsbD_ofNat, testBit_unnamedBits]
  simp [fits]

/-! ## Parts -/

/-- The numbers of the set bits of a word that have one of the numbers from `bit` on. -/
def setBits (bits : UInt32) (bit count : Nat) : List Nat :=
  (List.range' bit count).filter fun i => bits.toBitVec.getLsbD i

def partWords : List UInt32 :=
  (setBits flags.bits 0 (Keyword.all : List φ).length).map
    (fun bit => (1 : UInt32) <<< UInt32.ofNat bit) ++
    if flags.unnamedBits = 0 then [] else [UInt32.ofNat flags.unnamedBits]

/-- The parts of a flag set have its bits. -/
theorem foldl_partWords [FlagNames φ] : flags.partWords.foldl (· ||| ·) 0 = flags.bits := by
  have few : (Keyword.all : List φ).length ≤ 32 := FlagNames.length_le
  refine UInt32.toBitVec_inj.1 (BitVec.eq_of_getLsbD_eq fun i hi => ?_)
  have named : ((setBits flags.bits 0 (Keyword.all : List φ).length).any fun bit =>
      ((1 : UInt32) <<< UInt32.ofNat bit).toBitVec.getLsbD i) =
      (decide (i < (Keyword.all : List φ).length) && flags.bits.toBitVec.getLsbD i) := by
    rw [Bool.eq_iff_iff, List.any_eq_true]
    constructor
    · rintro ⟨bit, hb, here⟩
      obtain ⟨below, set⟩ := List.mem_filter.1 hb
      have below := (List.mem_range'_1.1 below).2
      rw [getLsbD_one_shiftLeft (by omega), decide_eq_true_eq] at here
      subst here
      simp [set]
      omega
    · intro h
      simp only [Bool.and_eq_true, decide_eq_true_eq] at h
      refine ⟨i, List.mem_filter.2 ⟨List.mem_range'_1.2 ⟨Nat.zero_le i, by omega⟩, h.2⟩, ?_⟩
      rw [getLsbD_one_shiftLeft (by omega)]
      simp
  have unnamed : ((if flags.unnamedBits = 0 then [] else [UInt32.ofNat flags.unnamedBits]).any
      fun word => word.toBitVec.getLsbD i) =
      (decide ((Keyword.all : List φ).length ≤ i) && flags.bits.toBitVec.getLsbD i) := by
    rw [← getLsbD_ofNat_unnamedBits flags hi]
    by_cases none : flags.unnamedBits = 0 <;> simp [none]
  rw [getLsbD_foldl_or, partWords, List.any_append, List.any_map]
  simp only [Function.comp_def, named, unnamed]
  by_cases below : i < (Keyword.all : List φ).length
  · simp [below]
  · simp [Nat.le_of_not_lt below]

/-! ## The written form -/

theorem unbroken_of_forall {word : List Char} (h : ∀ c ∈ word, 48 ≤ c.toNat ∧ c.toNat ≤ 122) :
    Text.Unbroken '|' word := by
  intro c hc
  have bounds := h c hc
  constructor
  · simp [Text.isBlank]
    omega
  · rintro rfl
    exact absurd bounds (by decide)

theorem mem_namesFrom {bits : UInt32} {bit : Nat} {rest : List φ} {name : String}
    (h : name ∈ namesFrom bits bit rest) : ∃ flag ∈ rest, name = Keyword.text flag := by
  induction rest generalizing bit with
  | nil => cases h
  | cons flag rest ih => grind [namesFrom]

theorem bounds_of_mem_toDigits {n : Nat} {c : Char} (h : c ∈ Nat.toDigits 16 n) :
    48 ≤ c.toNat ∧ c.toNat ≤ 122 := by
  obtain ⟨d, small, rfl⟩ := exists_digit_of_mem_toDigits h
  have all : ∀ d < 16, 48 ≤ d.digitChar.toNat ∧ d.digitChar.toNat ≤ 122 := by decide
  exact all d small

theorem partBits?_number {n : Nat} (fits : n < UInt32.size) :
    partBits? φ ('0' :: 'x' :: Nat.toDigits 16 n) = some (UInt32.ofNat n) :=
  hexWord?_toDigits fits

section Reading

variable [FlagNames φ]

theorem capital_bounds {flag : φ} (h : flag ∈ (Keyword.all : List φ)) {c : Char}
    (hc : c ∈ (Keyword.text flag).toList) : 65 ≤ c.toNat ∧ c.toNat ≤ 95 := by
  have capital : c.isUpper ∨ c = '_' := by
    simpa using List.all_eq_true.1 (FlagNames.capitals flag h) c hc
  rcases capital with upper | rfl
  · have bounds : 65 ≤ c.toNat ∧ c.toNat ≤ 90 := of_decide_eq_true upper
    omega
  · decide

/-- A name of the vocabulary has neither blanks nor bars. -/
theorem unbroken_text {flag : φ} (h : flag ∈ (Keyword.all : List φ)) :
    Text.Unbroken '|' (Keyword.text flag).toList :=
  unbroken_of_forall fun c hc => by
    have := capital_bounds h hc
    omega

theorem partBits?_text {flag : φ} {bit : Nat} (h : (Keyword.all : List φ)[bit]? = some flag) :
    partBits? φ (Keyword.text flag).toList = some ((1 : UInt32) <<< UInt32.ofNat bit) := by
  obtain ⟨inside, rfl⟩ := List.getElem?_eq_some_iff.1 h
  have listed : (Keyword.all : List φ)[bit] ∈ (Keyword.all : List φ) := List.getElem_mem inside
  -- a name starts with a letter, so that it is looked up
  have word : ∀ digits, (Keyword.text (Keyword.all : List φ)[bit]).toList = '0' :: 'x' :: digits →
      False := by
    intro digits e
    have := capital_bounds listed (c := '0') (by simp [e])
    exact absurd this (by decide)
  rw [partBits?.eq_2 _ _ word]
  have found : (Keyword.all : List φ).findIdx? (fun other => (Keyword.text other).toList ==
      (Keyword.text (Keyword.all : List φ)[bit]).toList) = some bit := by
    rw [List.findIdx?_eq_some_iff_getElem]
    refine ⟨inside, by simp, fun earlier below same => ?_⟩
    have texts : Keyword.text (Keyword.all : List φ)[earlier] =
        Keyword.text (Keyword.all : List φ)[bit] := by
      simpa [String.toList_inj] using same
    have nodup : ((Keyword.all : List φ).map Keyword.text).Nodup := FlagNames.nodup
    have positions : earlier = bit := by
      have lengths : ((Keyword.all : List φ).map Keyword.text).length =
        (Keyword.all : List φ).length :=
        List.length_map _
      rw [← nodup.getElem_inj_iff, List.getElem_map, List.getElem_map]
      · exact texts
      all_goals omega
    omega
  rw [found]
  rfl

/-- The names of the flags from one on stand for the bits that are set. -/
theorem mapM_namesFrom (bits : UInt32) {bit : Nat} {rest : List φ}
    (h : (Keyword.all : List φ).drop bit = rest) :
    (namesFrom bits bit rest).mapM (fun name => partBits? φ name.toList) =
      some ((setBits bits bit rest.length).map fun i => (1 : UInt32) <<< UInt32.ofNat i) := by
  induction rest generalizing bit with
  | nil => rfl
  | cons flag rest ih =>
    have here : (Keyword.all : List φ)[bit]? = some flag := by
      rw [← List.head?_drop, h]
      rfl
    have later : (Keyword.all : List φ).drop (bit + 1) = rest := by
      rw [← List.tail_drop, h]
      rfl
    have ih := ih later
    rw [setBits] at ih
    rw [namesFrom, setBits, List.length_cons, List.range'_succ]
    by_cases set : bits.toBitVec.getLsbD bit
    · simp [set, List.mapM_cons, partBits?_text here, ih]
    · simpa [set] using ih

/-- The parts of a flag set are not empty, and have neither blanks nor bars. -/
theorem part_cases {part : String} (h : part ∈ flags.parts) :
    Text.Unbroken '|' part.toList ∧ part.toList ≠ [] := by
  rcases List.mem_append.1 h with h | h
  · obtain ⟨flag, listed, rfl⟩ := mem_namesFrom h
    exact ⟨unbroken_text listed,
      fun e => FlagNames.ne_empty flag listed (String.toList_eq_nil_iff.1 e)⟩
  · split at h
    · cases h
    · rw [List.mem_singleton.1 h, String.toList_ofList]
      refine ⟨unbroken_of_forall fun c hc => ?_, by simp⟩
      rcases List.mem_cons.1 hc with rfl | hc
      · decide
      rcases List.mem_cons.1 hc with rfl | hc
      · decide
      · exact bounds_of_mem_toDigits hc

/-- The parts of a flag set stand for its words. -/
theorem mapM_parts :
    flags.parts.mapM (fun part => partBits? φ part.toList) = some flags.partWords := by
  have names : (namesFrom flags.bits 0 Keyword.all).mapM (fun name => partBits? φ name.toList) =
    _ :=
    mapM_namesFrom flags.bits (List.drop_zero)
  have number := partBits?_number (φ := φ) flags.unnamedBits_lt
  rw [parts, List.mapM_append, names, partWords]
  by_cases none : flags.unnamedBits = 0 <;> simp [none, number]

/-- A flag set is read as it was written, whatever its bits are. -/
@[simp] theorem ofText?_text : ofText? flags.text = some flags := by
  have written : flags.text.toList =
    List.intercalate [' ', '|', ' '] (flags.parts.map String.toList) :=
    String.toList_intercalate
  have words := flags.mapM_parts
  have bits := flags.foldl_partWords
  have unbroken : ∀ word ∈ flags.parts.map String.toList, Text.Unbroken '|' word ∧ word ≠ [] := by
    intro word hw
    obtain ⟨part, hp, rfl⟩ := List.mem_map.1 hw
    exact flags.part_cases hp
  by_cases empty : flags.parts = []
  · -- nothing is written for the empty set
    have blank : Text.isAllBlank flags.text.toList = true := by
      simp [written, empty, Text.isAllBlank]
    have none : flags.partWords = [] := by simpa [empty] using words.symm
    rw [none] at bits
    rw [ofText?, if_pos blank]
    exact congrArg (fun bits => some (Flags.mk bits)) bits
  · have cut := Text.map_trim_segments (by simpa using empty) (fun word hw => (unbroken word hw).1)
      (by decide : Text.isBlank '|' = false)
    rw [← written] at cut
    have visible : ¬Text.isAllBlank flags.text.toList = true := by
      intro blank
      rw [Text.map_trim_segments_of_isAllBlank blank rfl] at cut
      exact (unbroken [] (by simp [← cut])).2 rfl
    have read :
        (Text.segments '|' flags.text.toList).mapM (fun part => partBits? φ (Text.trim part)) =
          some flags.partWords := by
      rw [← words]
      have := congrArg (List.mapM (partBits? φ)) cut
      rw [List.mapM_map, List.mapM_map] at this
      exact this
    rw [ofText?, if_neg visible, read]
    exact congrArg (fun bits => some (Flags.mk bits)) bits

end Reading

end Flags

end ClassSymbols
