import ClassSymbols.Dump.Keyword
import ClassSymbols.Text.Blank
import ClassSymbols.Text.Hex
import ClassSymbols.Text.Segments

/-!
# Flag sets

A flag set is a 32-bit word whose lowest bits have names. It is written as the names of the set
flags in the order of their bits, joined by a bar with blanks around it, and then the bits without a
name as one hexadecimal number. Read, the parts between bars may come in any order, and each may be
a name or a hexadecimal number; a blank text is the empty set.

## Main definitions

* `Flags` — the sets over a vocabulary of flags.
* `Flags.has` — membership of a named flag.
* `Flags.text`, `Flags.ofText?` — the written form.
-/

namespace ClassSymbols

/-- A set of the flags in `φ`, bits without a name included. The first flag of the vocabulary is
the lowest bit. -/
structure Flags (φ : Type) where
  bits : UInt32
  deriving DecidableEq, Repr

namespace Flags

variable {φ : Type}

def empty : Flags φ := ⟨0⟩

instance : Inhabited (Flags φ) := ⟨empty⟩

variable [Keyword φ]

def bitOf [DecidableEq φ] (flag : φ) : Nat := (Keyword.all : List φ).idxOf flag

def has [DecidableEq φ] (flags : Flags φ) (flag : φ) : Bool :=
  flags.bits.toBitVec.getLsbD (bitOf flag)

/-! ## Hexadecimal numbers -/

/-- The number that hexadecimal digits spell after `n`. -/
def hexValueFrom? (n : Nat) : List Char → Option Nat
  | [] => some n
  | c :: cs => (Text.hexDigit? c).bind fun d => hexValueFrom? (16 * n + d) cs

/-- The word that hexadecimal digits spell: at least one, after an optional plus sign. -/
def hexWord? (cs : List Char) : Option UInt32 :=
  let digits := match cs with
    | '+' :: rest => rest
    | rest => rest
  if digits.isEmpty then none
  else (hexValueFrom? 0 digits).bind fun n =>
    if n < UInt32.size then some (UInt32.ofNat n) else none

/-! ## The written form -/

/-- The names of the set flags whose bits are numbered from `bit` on. -/
def namesFrom (bits : UInt32) : Nat → List φ → List String
  | _, [] => []
  | bit, flag :: rest =>
    if bits.toBitVec.getLsbD bit then Keyword.text flag :: namesFrom bits (bit + 1) rest
    else namesFrom bits (bit + 1) rest

/-- The bits that have no name, as a number. -/
def unnamedBits (flags : Flags φ) : Nat :=
  let named := (Keyword.all : List φ).length
  flags.bits.toNat >>> named <<< named

def parts (flags : Flags φ) : List String :=
  namesFrom flags.bits 0 (Keyword.all : List φ) ++
    if flags.unnamedBits = 0 then []
    else [String.ofList ('0' :: 'x' :: Nat.toDigits 16 flags.unnamedBits)]

def text (flags : Flags φ) : String := " | ".intercalate flags.parts

/-- The bits that one part of a written flag set stands for. -/
def partBits? (φ : Type) [Keyword φ] (part : List Char) : Option UInt32 :=
  match part with
  | '0' :: 'x' :: digits => hexWord? digits
  | name =>
    ((Keyword.all : List φ).findIdx? fun flag => (Keyword.text flag).toList == name).map
      fun bit => (1 : UInt32) <<< UInt32.ofNat bit

def ofText? (text : String) : Option (Flags φ) :=
  if Text.isAllBlank text.toList then some empty
  else do
    let words ← (Text.segments '|' text.toList).mapM fun part => partBits? φ (Text.trim part)
    some ⟨words.foldl (· ||| ·) 0⟩

end Flags

end ClassSymbols
