import IttyBitty.Text.Hex

/-!
# Blanks, trimming and words

A blank is a character that separates words: the Unicode white space, and the four separator
controls U+001C to U+001F. Zero-width characters (U+200B, U+2060, U+FEFF) and U+180E are none.
Trimming drops blanks at both ends; splitting into words drops all of them.
-/

namespace IttyBitty

/-- Whether a character is a blank. -/
def isBlank (c : Char) : Bool :=
  let n := c.toNat
  (0x09 ≤ n && n ≤ 0x0D) || (0x1C ≤ n && n ≤ 0x20) || n == 0x85 || n == 0xA0 || n == 0x1680
    || (0x2000 ≤ n && n ≤ 0x200A) || n == 0x2028 || n == 0x2029 || n == 0x202F || n == 0x205F
    || n == 0x3000

/-- A character that is no blank. -/
def isVisible (c : Char) : Bool := !isBlank c

/-- A list without the entries at its two ends that a test holds of. -/
def stripped {α : Type} (p : α → Bool) (l : List α) : List α :=
  ((l.dropWhile p).reverse.dropWhile p).reverse

namespace Text

/-- The text without the blanks at its two ends. -/
def trim (t : Text) : Text := stripped isBlank t

/-- Puts the word under construction, if any, before the words that follow it. -/
def closeWord : Text × List Text → List Text
  | ([], rest) => rest
  | (word, rest) => word :: rest

/-- The maximal runs of visible characters, in order. -/
def words (t : Text) : List Text :=
  closeWord <| t.foldr
    (fun c run => if isBlank c then ([], closeWord run) else (c :: run.1, run.2)) ([], [])

end Text

end IttyBitty
