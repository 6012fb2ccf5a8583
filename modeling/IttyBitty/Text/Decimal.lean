import IttyBitty.Text.Hex

/-!
# ASCII decimal numerals

Runs of the digits 0 to 9 and nothing else: no sign, no separators, no digits of other scripts.
A numeral is read only if it has no more digits than a limit, whatever its value: zeros in front
count.
-/

namespace IttyBitty.Decimal

/-- Whether a character is an ASCII decimal digit. -/
def isDigit (c : Char) : Bool := '0' ≤ c && c ≤ '9'

/-- The number that a sequence of digits stands for. -/
def number (digits : Text) : Nat := digits.foldl (fun n c => 10 * n + (c.toNat - '0'.toNat)) 0

/-- The greatest number of digits of a numeral that is read. -/
def maxDigits : Nat := 4300

/-- The number that is read from a sequence of digits; from too many of them none is. -/
def number? (digits : Text) : Option Nat :=
  if digits.length ≤ maxDigits then some (number digits) else none

/-- Zeros in front change nothing about the number. -/
theorem number_zeros (n : Nat) (digits : Text) :
    number (List.replicate n '0' ++ digits) = number digits := by
  have hzeros : (List.replicate n '0').foldl (fun n c => 10 * n + (c.toNat - '0'.toNat)) 0 = 0 := by
    induction n with
    | zero => rfl
    | succ n ih => exact ih
  rw [number, List.foldl_append, hzeros, number]

theorem number?_of_le {digits : Text} (h : digits.length ≤ maxDigits) :
    number? digits = some (number digits) := if_pos h

theorem number?_of_lt {digits : Text} (h : maxDigits < digits.length) :
    number? digits = none := if_neg (Nat.not_le_of_lt h)

end IttyBitty.Decimal
