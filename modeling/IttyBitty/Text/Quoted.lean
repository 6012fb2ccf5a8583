import IttyBitty.Text.Printable
import IttyBitty.Text.Raw

/-!
# Quoted texts

A quoted text stands between single quotes, or between double quotes if it holds a single quote
and no double quote. Inside, a backslash comes before the quote in use and before itself; line
feed, carriage return and tab have short forms; any other character that does not print, and every
surrogate, is written by its code point in two, four or eight hexadecimal digits. So a quoted text
is one line of characters and can be read back.
-/

namespace IttyBitty.RawText

/-- The quote that stands around a text. -/
def quoteFor (t : RawText) : Char :=
  if t.contains (.char '\'') && !t.contains (.char '"') then '"' else '\''

/-- A code point by its number, in the fewest of two, four and eight digits. -/
def codePoint (n : Nat) : Text :=
  if n ≤ 0xFF then '\\' :: 'x' :: Hex.lower 2 n
  else if n ≤ 0xFFFF then '\\' :: 'u' :: Hex.lower 4 n
  else '\\' :: 'U' :: Hex.lower 8 n

/-- The form of a character between two of the given quotes. -/
def quoteChar (quote c : Char) : Text :=
  if c = quote ∨ c = '\\' then ['\\', c]
  else if c = '\n' then ['\\', 'n']
  else if c = '\r' then ['\\', 'r']
  else if c = '\t' then ['\\', 't']
  else if isPrintable c then [c]
  else codePoint c.toNat

/-- The form of a code point between two of the given quotes. -/
def quoteCodePoint (quote : Char) : CodePoint → Text
  | .char c => quoteChar quote c
  | .surrogate n => codePoint (0xD800 + n)

/-- The quoted form of a text. -/
def quoted (t : RawText) : Text :=
  let quote := quoteFor t
  quote :: (t.flatMap (quoteCodePoint quote) ++ [quote])

/-- Quoted texts between brackets, separated by commas. -/
def quotedList (ts : List RawText) : String :=
  "[" ++ ", ".intercalate (ts.map fun t => String.ofList (quoted t)) ++ "]"

end IttyBitty.RawText
