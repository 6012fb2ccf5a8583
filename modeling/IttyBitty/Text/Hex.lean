/-!
# Hexadecimal numerals

Digits are ASCII only, in both directions. Numerals are written in lower case, except in register
displays, and padded with zeros on the left to a least width.
-/

namespace IttyBitty

/-- A text as its characters: lengths, columns and first parts count characters. -/
abbrev Text := List Char

namespace Hex

/-- The value of a hexadecimal digit. -/
def digit? (c : Char) : Option Nat :=
  if '0' ≤ c ∧ c ≤ '9' then some (c.toNat - '0'.toNat)
  else if 'a' ≤ c ∧ c ≤ 'f' then some (c.toNat - 'a'.toNat + 10)
  else if 'A' ≤ c ∧ c ≤ 'F' then some (c.toNat - 'A'.toNat + 10)
  else none

/-- Whether a character is an ASCII hexadecimal digit. -/
def isDigit (c : Char) : Bool := (digit? c).isSome

/-- The number that a sequence of digits stands for; a character that is no digit counts as zero. -/
def number (digits : Text) : Nat :=
  digits.foldl (fun n c => 16 * n + (digit? c).getD 0) 0

/-- Zeros up to the width, and then the digits. -/
def padded (width : Nat) (digits : Text) : Text :=
  List.replicate (width - digits.length) '0' ++ digits

/-- A number of at least `width` lower-case digits. -/
def lower (width n : Nat) : Text := padded width (Nat.toDigits 16 n)

/-- An integer in at least `width` places, lower case; a minus sign takes the first place. -/
def lowerInt (width : Nat) (n : Int) : Text :=
  if n < 0 then '-' :: lower (width - 1) n.natAbs else lower width n.natAbs

/-- An integer in at least `width` places, upper case; a minus sign takes the first place. -/
def upperInt (width : Nat) (n : Int) : Text := (lowerInt width n).map Char.toUpper

/-- The two digits of a byte. -/
def byte (b : UInt8) : Text := lower 2 b.toNat

end Hex

end IttyBitty
