import BtTracker.Foundation.ByteOrder
import Mathlib.Data.List.TakeWhile
import Mathlib.Tactic.IntervalCases

/-!
# Decimal texts

Integers as the decimal byte strings a server stores and a C program parses.
`string2ll` is the strict reading used before an increment; `strtoimax` is the
lenient one of the C library, which skips leading white space, stops at the
first byte that is not a digit and saturates.
-/

namespace BtTracker.Foundation

namespace Decimal

/-- Decimal digits of a natural number. -/
def ofNat (value : Nat) : Bytes :=
  (Nat.toDigits 10 value).map fun digit => BitVec.ofNat 8 digit.toNat

/-- Decimal text of an integer. -/
def ofInt : Int → Bytes
  | .ofNat value => ofNat value
  | .negSucc value => 45 :: ofNat (value + 1) -- `-`

/-- Whether a byte is an ASCII digit. -/
def isDigit (byte : Byte) : Bool := decide (48 ≤ byte ∧ byte ≤ 57)

/-- Value of a string of digits. -/
def value (digits : Bytes) : Nat :=
  digits.foldl (fun total digit => 10 * total + (digit.toNat - 48)) 0

/-- A positive number without a leading zero. -/
def magnitude? (text : Bytes) : Option Nat :=
  if text.all isDigit = true ∧ text ≠ [] ∧ text.head? ≠ some 48 then
    some (value text)
  else
    none

/-- The 64-bit integer a stored counter holds, if its text is one. -/
def string2ll (text : Bytes) : Option Int :=
  if text = [48] then some 0
  else if text.head? = some 45 then
    (magnitude? text.tail).bind fun size =>
      if size ≤ 2 ^ 63 then some (-(size : Int)) else none
  else
    (magnitude? text).bind fun size => if size < 2 ^ 63 then some (size : Int) else none

/-- White space as the C library sees it. -/
def isSpace (byte : Byte) : Bool := decide (byte = 32 ∨ (9 ≤ byte ∧ byte ≤ 13))

/-- `strtoimax` in base ten, saturating at the limits of a 64-bit integer. -/
def strtoimax (text : Bytes) : Int :=
  let body := text.dropWhile isSpace
  let negative := decide (body.head? = some 45)
  let signed := negative || decide (body.head? = some 43)
  let digits := (if signed then body.tail else body).takeWhile isDigit
  if negative then
    max (-(value digits : Int)) (-(2 ^ 63))
  else
    min (value digits : Int) (2 ^ 63 - 1)

private theorem isDigit_ofChar {character : Char} (digit : character.isDigit) :
    isDigit (BitVec.ofNat 8 character.toNat) = true ∧
      (BitVec.ofNat 8 character.toNat).toNat = character.toNat := by
  have bounds : 48 ≤ character.toNat ∧ character.toNat ≤ 57 := by
    simp only [Char.isDigit, Bool.and_eq_true, decide_eq_true_eq] at digit
    exact ⟨UInt32.le_iff_toNat_le.mp digit.1, UInt32.le_iff_toNat_le.mp digit.2⟩
  have same : (BitVec.ofNat 8 character.toNat).toNat = character.toNat := by
    rw [BitVec.toNat_ofNat]
    omega
  refine ⟨?_, same⟩
  simp only [isDigit, decide_eq_true_eq, BitVec.le_def, same]
  exact bounds

private theorem foldl_ofChars (digits : List Char)
    (valid : ∀ digit ∈ digits, digit.isDigit) (total : Nat) :
    (digits.map fun digit => BitVec.ofNat 8 digit.toNat).foldl
        (fun total digit => 10 * total + (digit.toNat - 48)) total =
      Nat.ofDigitChars 10 digits total := by
  induction digits generalizing total with
  | nil => simp [Nat.ofDigitChars_nil]
  | cons digit digits ih =>
      have same := (isDigit_ofChar (valid digit (by simp))).2
      rw [Nat.ofDigitChars_cons, List.map_cons, List.foldl_cons, same]
      exact ih (fun other member => valid other (by simp [member])) _

/-- Reading the digits of a number gives the number back. -/
theorem value_ofNat (number : Nat) : value (ofNat number) = number := by
  have digits : ∀ digit ∈ Nat.toDigits 10 number, digit.isDigit := fun digit member =>
    Nat.isDigit_of_mem_toDigits (by decide) (by decide) member
  rw [value, ofNat, foldl_ofChars _ digits, Nat.ofDigitChars_ten_toDigits]

theorem all_isDigit_ofNat (number : Nat) : (ofNat number).all isDigit = true := by
  simp only [ofNat, List.all_map, List.all_eq_true, Function.comp_apply]
  intro digit member
  exact (isDigit_ofChar
    (Nat.isDigit_of_mem_toDigits (by decide) (by decide) member)).1

theorem ofNat_ne_nil (number : Nat) : ofNat number ≠ [] := by
  simp [ofNat, Nat.toDigits_ne_nil]

theorem head?_ofNat_ne_zero (number : Nat) (positive : 0 < number) :
    (ofNat number).head? ≠ some 48 := by
  induction number using Nat.strong_induction_on with
  | _ number ih =>
      by_cases small : number < 10
      · rw [ofNat, Nat.toDigits_of_lt_base small]
        interval_cases number <;> decide
      · have split := Nat.toDigits_of_base_le (show 1 < 10 by decide) (Nat.le_of_not_lt small)
        have shorter := ih (number / 10) (by omega) (by omega)
        obtain ⟨first, digits, shape⟩ :=
          List.exists_cons_of_ne_nil (ofNat_ne_nil (number / 10))
        have unfolded : ofNat number =
            ofNat (number / 10) ++ [BitVec.ofNat 8 (number % 10).digitChar.toNat] := by
          simp [ofNat, split]
        rw [shape] at shorter
        rw [unfolded, shape]
        exact shorter

/-- A digit is no white space, no sign and no terminator. -/
theorem marks_of_isDigit : ∀ byte : Byte, isDigit byte = true →
    isSpace byte = false ∧ byte ≠ 45 ∧ byte ≠ 43 ∧ byte ≠ 0 := by
  decide +kernel

theorem exists_head_ofNat (number : Nat) :
    ∃ first rest, ofNat number = first :: rest ∧ isDigit first = true := by
  obtain ⟨first, rest, shape⟩ := List.exists_cons_of_ne_nil (ofNat_ne_nil number)
  have digits := all_isDigit_ofNat number
  rw [shape, List.all_cons, Bool.and_eq_true] at digits
  exact ⟨first, rest, shape, digits.1⟩

/-- The strict reading accepts every text the server itself writes for a number
that fits in 64 bits. -/
theorem string2ll_ofNat (number : Nat) (fits : number < 2 ^ 63) :
    string2ll (ofNat number) = some (number : Int) := by
  rcases Nat.eq_zero_or_pos number with rfl | positive
  · decide
  · have first := head?_ofNat_ne_zero number positive
    have digits := all_isDigit_ofNat number
    have notZero : ofNat number ≠ [48] := by
      intro equal
      simp [equal] at first
    have notMinus : (ofNat number).head? ≠ some 45 := by
      obtain ⟨head, tail, shape, digit⟩ := exists_head_ofNat number
      rw [shape, List.head?_cons]
      rintro ⟨rfl⟩
      exact absurd digit (by decide)
    rw [string2ll, if_neg notZero, if_neg notMinus, magnitude?,
      if_pos ⟨digits, ofNat_ne_nil number, first⟩, value_ofNat, Option.bind_some,
      if_pos fits]

/-- The lenient reading agrees with the strict one on such a text. -/
theorem strtoimax_ofNat (number : Nat) (fits : number < 2 ^ 63) :
    strtoimax (ofNat number) = number := by
  obtain ⟨first, rest, shape, digit⟩ := exists_head_ofNat number
  obtain ⟨visible, notMinus, notPlus, -⟩ := marks_of_isDigit first digit
  have body : (ofNat number).dropWhile isSpace = ofNat number := by
    rw [shape, List.dropWhile_cons_of_neg (by rw [visible]; decide)]
  have unsigned : (ofNat number).head? ≠ some 45 ∧ (ofNat number).head? ≠ some 43 := by
    rw [shape, List.head?_cons, Ne, Ne, Option.some.injEq, Option.some.injEq]
    exact ⟨notMinus, notPlus⟩
  have digits : (ofNat number).takeWhile isDigit = ofNat number :=
    List.takeWhile_eq_self_iff.mpr (List.all_eq_true.mp (all_isDigit_ofNat number))
  simp only [strtoimax, body, unsigned.1, unsigned.2, decide_false, Bool.or_false,
    Bool.false_eq_true, if_false, digits, value_ofNat]
  omega

end Decimal

end BtTracker.Foundation
