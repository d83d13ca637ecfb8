/-!
# Decimal numbers

Numbers written in decimal digits, and read back as far as they fit in a machine
word of 64 bits.  Leading zeros do not count.
-/

namespace TapeReduction.Text

/-- The decimal digits of a number. -/
def digits (n : Nat) : List Char :=
  Nat.toDigits 10 n

/-- One more than the largest machine word. -/
def wordBound : Nat :=
  0x10000000000000000

/-- The value of digits behind a number already read, if it fits in a machine word. -/
def wordOfDigits (value : Nat) : List Char → Option Nat
  | [] => some value
  | c :: rest =>
    let next := 10 * value + (c.toNat - '0'.toNat)
    if next < wordBound then wordOfDigits next rest else none

/-- Digits behind a number only make it larger. -/
theorem le_ofDigitChars (cs : List Char) (value : Nat) :
    value ≤ Nat.ofDigitChars 10 cs value := by
  induction cs generalizing value with
  | nil => exact Nat.le_refl value
  | cons c rest ih =>
    rw [Nat.ofDigitChars_cons]
    have hnext := ih (10 * value + (c.toNat - '0'.toNat))
    omega

/-- Digits are read as their value exactly if it fits in a machine word. -/
theorem wordOfDigits_eq {cs : List Char} {value : Nat} (h : value < wordBound) :
    wordOfDigits value cs =
      if Nat.ofDigitChars 10 cs value < wordBound then some (Nat.ofDigitChars 10 cs value)
      else none := by
  induction cs generalizing value with
  | nil => simp [wordOfDigits, Nat.ofDigitChars, h]
  | cons c rest ih =>
    rw [wordOfDigits, Nat.ofDigitChars_cons]
    by_cases hnext : 10 * value + (c.toNat - '0'.toNat) < wordBound
    · rw [if_pos hnext, ih hnext]
    · have hle := le_ofDigitChars rest (10 * value + (c.toNat - '0'.toNat))
      rw [if_neg hnext, if_neg (by omega)]

end TapeReduction.Text
