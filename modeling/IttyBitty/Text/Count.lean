import IttyBitty.Text.Decimal
import IttyBitty.Text.Raw

/-!
# Counts

A count is a decimal numeral: digits with single underscores allowed between two of them, an
optional sign in front, and blanks around it all. A digit is any character of the general category
Nd, whose blocks run from zero to nine in order, so a table of the zeros describes them all.

The separator controls U+001C to U+001F, though blanks elsewhere, do not belong around a numeral.
A numeral with more digits than the limit for decimal numerals is not read.
-/

namespace IttyBitty

namespace Text

/-- The zeros of the decimal digit blocks. -/
def zeroDigits : List Nat := [
    0x0030, 0x0660, 0x06F0, 0x07C0, 0x0966, 0x09E6, 0x0A66, 0x0AE6,
    0x0B66, 0x0BE6, 0x0C66, 0x0CE6, 0x0D66, 0x0DE6, 0x0E50, 0x0ED0,
    0x0F20, 0x1040, 0x1090, 0x17E0, 0x1810, 0x1946, 0x19D0, 0x1A80,
    0x1A90, 0x1B50, 0x1BB0, 0x1C40, 0x1C50, 0xA620, 0xA8D0, 0xA900,
    0xA9D0, 0xA9F0, 0xAA50, 0xABF0, 0xFF10, 0x104A0, 0x10D30, 0x11066,
    0x110F0, 0x11136, 0x111D0, 0x112F0, 0x11450, 0x114D0, 0x11650, 0x116C0,
    0x11730, 0x118E0, 0x11950, 0x11C50, 0x11D50, 0x11DA0, 0x16A60, 0x16AC0,
    0x16B50, 0x1D7CE, 0x1D7D8, 0x1D7E2, 0x1D7EC, 0x1D7F6, 0x1E140, 0x1E2F0,
    0x1E950, 0x1FBF0]

/-- The value of a decimal digit of any script. -/
def decimalDigit? (c : Char) : Option Nat :=
  (zeroDigits.find? fun first => first ≤ c.toNat && c.toNat < first + 10).map (c.toNat - ·)

/-- Whether a character may stand around a numeral. -/
def isMargin (c : Char) : Bool := isBlank c && !(0x1C ≤ c.toNat && c.toNat ≤ 0x1F)

/-- The digits of a numeral, added to the value of those already read. -/
def digitsFrom (value : Nat) : Text → Option Nat
  | [] => some value
  | '_' :: c :: rest => do
    let digit ← decimalDigit? c
    digitsFrom (10 * value + digit) rest
  | c :: rest => do
    let digit ← decimalDigit? c
    digitsFrom (10 * value + digit) rest

/-- An unsigned numeral: it starts with a digit. -/
def unsigned? : Text → Option Nat
  | [] => none
  | c :: rest => do
    let digit ← decimalDigit? c
    digitsFrom digit rest

/-- A signed numeral with nothing around it. -/
def signed? : Text → Option Int
  | '+' :: rest => (unsigned? rest).map Int.ofNat
  | '-' :: rest => (unsigned? rest).map fun n => -(n : Int)
  | t => (unsigned? t).map Int.ofNat

/-- The number of digits in a text. -/
def digitCount (t : Text) : Nat := t.countP fun c => (decimalDigit? c).isSome

/-- The integer that a text denotes, if it is a numeral that is read. -/
def integer? (t : Text) : Option Int :=
  if digitCount t ≤ Decimal.maxDigits then
    signed? ((t.dropWhile isMargin).reverse.dropWhile isMargin).reverse
  else none

/-- The natural number that a text denotes, if it is the numeral of one; `-0` is one of zero. -/
def count? (t : Text) : Option Nat :=
  match integer? t with
  | some (.ofNat n) => some n
  | _ => none

end Text

/-- The natural number that a text denotes; one that holds a surrogate is no numeral. -/
def RawText.count? (t : RawText) : Option Nat := (text? t).bind Text.count?

end IttyBitty
